import DialectBench.Proofs.Bench.Upkeep
import DialectBench.Proofs.Suite.Transient

/-! Cleaning up between targets: no directory of results is left in the workspace. -/

namespace DialectBench

open Disk Action

variable {d : Disk} {root : Path} {home : Location} {way : List String}
  {ways : List (List String)} {s : Session}

namespace Disk

/-- Above a directory there are directories. -/
theorem Sound.isDirectoryAt_above {place : Location} {names : List String} (sound : d.Sound)
    (stands : d.isDirectoryAt (place ++ names) = true) : d.isDirectoryAt place = true := by
  by_cases last : names = []
  · simpa [last] using stands
  · refine sound.isDirectoryAt_of_append last ?_
    rw [view_eq_directory.mpr stands]
    simp

/-- The path of a directory below another one leads to it, whatever links there are beside the way. -/
theorem Leads.resolve_directory (leads : d.Leads root home) (sound : d.Sound) (some : way ≠ [])
    (stands : d.isDirectoryAt (home ++ way) = true) (last : Bool) :
    d.resolve (root.extend way) last = .ok ⟨home ++ way, d.find? (home ++ way)⟩ := by
  obtain ⟨modified, there⟩ := find?_of_isDirectoryAt stands
  rw [leads.resolve_seen sound some there (by simp), there]

/-- A tree that has lost entries may lose more of them. -/
theorem thinnable_thinned (d : Disk) :
    Thinnable fun e => e.Sound ∧ d.Thins (fun _ => True) e where
  sound held := held.1
  thin held sound thins := ⟨sound, held.2.trans (thins.imp fun _ _ => trivial)⟩

end Disk

namespace Action

/-- A directory that is removed is gone. -/
theorem view_removeIfPresent (sound : s.scene.disk.Sound) (leads : s.scene.disk.Leads root home)
    (some : way ≠ []) (stands : s.scene.disk.isDirectoryAt (home ++ way) = true) :
    ((removeIfPresent (root.extend way)).after s).scene.disk.view (home ++ way) = none := by
  obtain ⟨modified, there⟩ := find?_of_isDirectoryAt stands
  have resolved := leads.resolve_directory sound some stands
  rw [there] at resolved
  have found : s.scene.disk.exists? (root.extend way) = true := by
    rw [exists?, entry_eq_ok.mpr (resolved true)]
    rfl
  have removing : s.scene.disk.removingTree (root.extend way) =
      .ok (s.scene.disk.deletions (home ++ way)) := by
    rw [removingTree, resolved]
  rw [(removeIfPresent_of_ok found removing).2, disk_performAll,
    view_deletions sound (by simp [some]), if_pos (List.prefix_refl _)]

end Action

namespace Suite

/-- Every directory of results below a place lies in one that is listed. -/
def Covers (ways : List (List String)) (d : Disk) (home : Location) : Prop :=
  ∀ way, isTransientWay way = true → d.isDirectoryAt (home ++ way) = true →
    ∃ outer ∈ ways, outer <+: way

/-- Without directories of results there are no modules. -/
theorem modules_of_swept (sound : d.Sound) (swept : ∀ home, d.Leads root home → Swept d home) :
    modules d root = [] := by
  by_cases there : ∃ home, d.Leads root home
  · obtain ⟨home, leads⟩ := there
    exact ((swept home leads).resultless sound).modules_eq_nil sound leads
  · exact modules_of_not_leads (not_exists.mp there)

end Suite

namespace Bench

open Suite

variable {bench : Bench}

/-- One directory is removed before the others, whatever comes of that. -/
theorem after_removeAll_cons (path : Path) (paths : List Path) (s : Session) :
    ∃ t : Session, t.scene.disk = ((removeIfPresent path).after s).scene.disk ∧
      (removeAll (path :: paths)).after s = (removeAll paths).after t := by
  have attempted := outcome_attempt (removeIfPresent path) s
  rw [removeAll, after_bind_of_ok attempted, after_attempt]
  cases (removeIfPresent path).outcome s with
  | ok removed => exact ⟨_, rfl, rfl⟩
  | error failure => exact ⟨(warn "failed to remove").after _, rfl, rfl⟩

/-- Where directories were removed that held all those of results, none of these is left. -/
theorem swept_removeAll (some : ∀ way ∈ ways, way ≠ []) (sound : s.scene.disk.Sound)
    (covers : s.scene.disk.Leads root home → Covers ways s.scene.disk home)
    (leads : ((removeAll (ways.map root.extend)).after s).scene.disk.Leads root home) :
    Swept ((removeAll (ways.map root.extend)).after s).scene.disk home := by
  -- The directories that are still listed hold all those of results that are still there.
  induction ways generalizing s with
  | nil =>
    intro way transient
    rw [Bool.eq_false_iff]
    intro stands
    obtain ⟨outer, listed, -⟩ := covers leads way transient stands
    cases listed
  | cons first ways ih =>
    obtain ⟨own, others⟩ := List.forall_mem_cons.mp some
    obtain ⟨t, tree, same⟩ :=
      after_removeAll_cons (root.extend first) (ways.map root.extend) s
    have thinned := (upholds_removeIfPresent (thinnable_thinned s.scene.disk)
      (root.extend first)).after_of_quiet (quiet_removeIfPresent _) ⟨sound, .refl _⟩
    rw [← tree] at thinned
    obtain ⟨left, thins⟩ := thinned
    rw [List.map_cons, same] at leads ⊢
    refine ih others left (fun still way transient stands => ?_) leads
    have before := still.mono thins.within thins.current.symm
    have stood := thins.within.isDirectoryAt stands
    obtain ⟨outer, listed, inside⟩ := covers before way transient stood
    rcases List.mem_cons.mp listed with rfl | later
    · -- What lies in the directory that was removed is gone with it.
      obtain ⟨rest, rfl⟩ := inside
      rw [← List.append_assoc] at stood stands
      have gone := view_removeIfPresent sound before own (sound.isDirectoryAt_above stood)
      rw [← tree, ← not_ne_iff] at gone
      refine absurd ?_ gone
      rw [view_eq_directory.mpr (left.isDirectoryAt_above stands)]
      simp
    · exact ⟨outer, later, inside⟩

/-- Cleaning the workspace removes the directories of results that are found. -/
theorem after_cleanResults (real : bench.options.dryRun = false) (s : Session) :
    bench.cleanResults.after s =
      (removeAll ((transientWays s.scene.disk bench.lab.workspace).map
        bench.lab.workspace.extend)).after s := by
  unfold cleanResults
  rw [after_bind_of_ok (outcome_look _ s), after_look, real]
  rfl

/-- After the workspace was cleaned no directory of results is in it. -/
theorem swept_cleanResults (real : bench.options.dryRun = false) (sound : s.scene.disk.Sound)
    (leads : (bench.cleanResults.after s).scene.disk.Leads bench.lab.workspace home) :
    Swept (bench.cleanResults.after s).scene.disk home := by
  obtain ⟨-, thins⟩ := (upholds_cleanResults (thinnable_thinned s.scene.disk)).after_of_quiet
    bench.quiet_cleanResults ⟨sound, .refl _⟩
  have before := leads.mono thins.within thins.current.symm
  rw [bench.after_cleanResults real] at leads ⊢
  exact swept_removeAll (fun way listed => (mem_transientWays sound before listed).1) sound
    (fun _ way transient stands => transientWays_cover sound before transient stands) leads

/-- A target that is not refused is driven through its stages, and then the workspace is cleaned for the
one that follows. -/
theorem after_trying {target : Target} {status : TargetFate}
    (unasked : s.scene.interrupted = false) (driven : (bench.drive target).outcome s = .ok status) :
    ((Part.trying target true).action bench).after s =
      bench.cleanResults.after ((bench.drive target).after s) := by
  have goes : stopIfAsked.outcome s = .ok () := by simp [unasked]
  have same : (Part.trying target true).action bench = stopIfAsked >>= fun _ =>
      bench.drive target >>= fun status => bench.cleanResults >>= fun _ =>
      pure [⟨target.identifier, status⟩] := by
    simp [Part.action, tryTarget_eq]
  rw [same, after_bind_of_ok goes, after_stopIfAsked, after_bind_of_ok driven,
    after_bind_of_ok (bench.outcome_cleanResults _), after_pure]

end Bench

/-- A target that another one follows leaves a workspace in which no directory of results is. -/
theorem Leg.swept {bench : Bench} {leg : Leg} {target : Target} {records : List TargetRecord}
    (own : leg = Leg.of bench (.trying target true) leg.before)
    (real : bench.options.dryRun = false) (sound : leg.before.scene.disk.Sound)
    (keeps : ∀ exchange ∈ leg.calls, exchange.Keeps Disk.Sound)
    (returned : leg.outcome = .ok records) (leads : leg.after.scene.disk.Leads bench.lab.workspace home) :
    Suite.Swept leg.after.scene.disk home := by
  have tries : leg.Tries bench target := own ▸ (bench.fits_trying leg.before target true).does
  cases tries with
  | refused _ _ stopped => simp [stopped] at returned
  | driven unasked _ _ _ outcome =>
    rw [outcome] at returned
    obtain ⟨status, driven, -⟩ := map_eq_ok.mp returned
    have after : leg.after = bench.cleanResults.after ((bench.drive target).after leg.before) := by
      conv_lhs => rw [own]
      exact Bench.after_trying unasked driven
    -- Cleaning up makes no calls, so all of them are made by the stages.
    obtain ⟨calls, led, kept⟩ := bench.maintains_sound.drive target leg.before
    have whole := led.trans (bench.quiet_cleanResults.leads _)
    rw [← after, List.append_nil] at whole
    have same : leg.calls = calls := whole.since_eq
    rw [after] at leads ⊢
    exact Bench.swept_cleanResults real (kept sound (same ▸ keeps)) leads

end DialectBench

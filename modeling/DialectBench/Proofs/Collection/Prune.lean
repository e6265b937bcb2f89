import DialectBench.Cleanup
import DialectBench.Proofs.Collection.Completion
import DialectBench.Proofs.Disk.Clearing
import DialectBench.Proofs.Disk.Landing

/-! Removing a complete collection: its manifest goes first, and nothing outside of it goes. -/

namespace DialectBench

open Disk Action

namespace Disk

variable {d e : Disk} {p : Path} {place : Location}

/-- A file that may be removed is where the moves of its path lead. -/
theorem removingFile_eq_ok {change : Change} (removing : d.removingFile p = .ok change)
    (linkless : d.Linkless []) :
    change = .delete (d.landing p) ∧ d.isDirectoryAt (d.landing p) = false := by
  unfold removingFile at removing
  cases resolved : d.resolve p false with
  | error refusal => simp [resolved] at removing
  | ok spot =>
    -- The path resolves to its landing, since no link is followed anywhere.
    have same := landing_of_resolve resolved linkless
    rw [resolved, same] at removing
    unfold isDirectoryAt
    cases found : d.find? (d.landing p) with
    | none => simp [found] at removing
    | some node =>
      rw [found] at removing
      cases node with
      | directory => simp at removing
      | file | link => exact ⟨(Except.ok.inj removing).symm, rfl⟩

/-- A directory that may be removed is where the moves of its path lead. -/
theorem removingTree_eq_ok {changes : List Change} (removing : d.removingTree p = .ok changes)
    (linkless : d.Linkless []) : changes = d.deletions (d.landing p) := by
  unfold removingTree at removing
  cases resolved : d.resolve p false with
  | error refusal => simp [resolved] at removing
  | ok spot =>
    -- Here, too, the path resolves to its landing.
    have same := landing_of_resolve resolved linkless
    rw [resolved, same] at removing
    cases found : d.find? (d.landing p) with
    | none => simp [found] at removing
    | some node =>
      rw [found] at removing
      cases node with
      | directory => exact (Except.ok.inj removing).symm
      | file => simp at removing
      | link target => exact absurd (view_eq_link.mpr found) (linkless _ target)

end Disk

namespace Collection

variable {directory : Path} {s : Session}

/-- The manifest in a directory lands directly in it. -/
theorem landing_manifest (d : Disk) (directory : Path) :
    d.landing (directory / Manifest.fileName) = d.landing directory ++ [Manifest.fileName] := by
  have same : directory / Manifest.fileName = directory.extend [Manifest.fileName] := rfl
  rw [same]
  by_cases named : directory.IsNamed
  · have single : ∀ name ∈ [Manifest.fileName], IsPlain name := by
      simpa using isPlain_manifest
    exact landing_of_moves (Path.isAbsolute_extend named single) (Path.moves_extend named single)
  · -- Behind a path without a text the name of the manifest stands alone.
    obtain ⟨text⟩ := directory
    obtain rfl : text = "" := by simpa [Path.IsNamed] using named
    exact landing_of_moves (by decide) (by decide)

/-- What removing a collection has done to the files at some moment. -/
structure Unsealing (d : Disk) (place : Location) (e : Disk) : Prop
    extends d.Thins (place <+: ·) e where
  /-- Every file is as it was, or the manifest is gone. -/
  first : (∀ other, e.content? other = d.content? other) ∨
    e.content? (place ++ [Manifest.fileName]) = none

/-- Nothing has changed yet. -/
theorem Unsealing.refl (d : Disk) (place : Location) : Unsealing d place d :=
  ⟨.refl d, Or.inl fun _ => rfl⟩

/-- When the manifest is gone more may go. -/
theorem Unsealing.of_thins {d e f : Disk} {place : Location} (thins : d.Thins (place <+: ·) e)
    (gone : e.content? (place ++ [Manifest.fileName]) = none) (more : e.Thins (place <+: ·) f) :
    Unsealing d place f :=
  ⟨thins.trans more, Or.inr ((more.content?_eq _).elim (·.trans gone) (·.2))⟩

/-- Removing what may be there removes what its path lands at, or nothing. -/
theorem ledger_removeIfPresent (linkless : s.scene.disk.Linkless []) :
    (removeIfPresent directory).ledger s = [] ∨
      (removeIfPresent directory).ledger s =
        s.scene.disk.deletions (s.scene.disk.landing directory) := by
  -- Something is there and can be removed, or nothing changes.
  by_cases found : s.scene.disk.exists? directory = true
  · cases removing : s.scene.disk.removingTree directory with
    | ok changes =>
      refine Or.inr ?_
      rw [ledger_congr (removeIfPresent_of_ok found removing).2, ledger_performAll]
      exact removingTree_eq_ok removing linkless
    | error refusal =>
      obtain ⟨failed, still⟩ := deleteTree_of_error removing
      refine Or.inl (ledger_eq_of ?_)
      unfold removeIfPresent
      rw [after_bind_of_ok (outcome_look _ s), after_look, if_pos found, after_bind_of_error failed,
        still]
      rfl
  · refine Or.inl (ledger_eq_of ?_)
    unfold removeIfPresent
    rw [after_bind_of_ok (outcome_look _ s), after_look, if_neg found]
    rfl

/-- While what may be there is removed nothing else goes, and what is left fits together. -/
theorem thins_removeIfPresent (sound : s.scene.disk.Sound) (linkless : s.scene.disk.Linkless [])
    (inner : s.scene.disk.landing directory ≠ []) :
    Throughout (s.scene.disk.Thins (s.scene.disk.landing directory <+: ·))
        (removeIfPresent directory) s ∧
      ((removeIfPresent directory).after s).scene.disk.Sound := by
  have tree := ((quiet_removeIfPresent directory).recorded s).2
  -- Either nothing goes, or what lies at the landing does.
  rcases ledger_removeIfPresent linkless with none | all
  · rw [none] at tree
    refine ⟨fun done part => ?_, tree ▸ sound⟩
    rw [none, List.prefix_nil] at part
    rw [part]
    exact .refl _
  · rw [all] at tree
    refine ⟨fun done part => ?_, tree ▸ sound.deletions inner⟩
    rw [all] at part
    exact thins_of_prefix_deletions sound inner part

/-- While a collection is removed its manifest goes first, and nothing outside of it goes. -/
theorem unsealing_dropCollection (sound : s.scene.disk.Sound) (linkless : s.scene.disk.Linkless [])
    (inner : s.scene.disk.landing directory ≠ []) :
    Throughout (Unsealing s.scene.disk (s.scene.disk.landing directory))
        (Cleanup.dropCollection directory) s ∧
      ((Cleanup.dropCollection directory).after s).scene.disk.Sound := by
  have quiet : (removeIfPresent directory >>= fun _ => (pure true : Action Bool)).Quiet :=
    (quiet_removeIfPresent directory).bind fun _ => .pure _
  have quietFile : (removeFile (directory / Manifest.fileName)).Quiet :=
    (quiet_look _).bind fun _ => (quiet_allowed _ _).bind fun _ => .perform _
  -- If the manifest cannot be removed, nothing else is touched.
  cases removing : s.scene.disk.removingFile (directory / Manifest.fileName) with
  | error refusal =>
    obtain ⟨failed, still⟩ := removeFile_of_error removing
    have same : (Cleanup.dropCollection directory).after s = s :=
      (after_bind_of_error failed _).trans still
    exact ⟨throughout_of_still (by rw [same]) (.refl _ _), by rw [same]; exact sound⟩
  | ok change =>
    obtain ⟨passed, left⟩ := removeFile_of_ok removing
    obtain ⟨rfl, leaf⟩ := removingFile_eq_ok removing linkless
    rw [landing_manifest] at left leaf
    -- The manifest is removed alone, and that is a removal of all that is at its place.
    have alone := deletions_of_not_isDirectoryAt sound leaf
    have nonempty : s.scene.disk.landing directory ++ [Manifest.fileName] ≠ [] := by simp
    have first : ((removeFile (directory / Manifest.fileName)).after s).scene.disk =
        s.scene.disk.applyAll (s.scene.disk.deletions
          (s.scene.disk.landing directory ++ [Manifest.fileName])) := by
      rw [left, alone]
      rfl
    have soundFirst := sound.deletions nonempty
    have thins := (thins_of_prefix_deletions sound nonempty (List.prefix_refl _)).imp
      fun other inside => (List.prefix_append _ _).trans inside
    -- With the manifest gone the directory still is where it was.
    have gone : (s.scene.disk.applyAll (s.scene.disk.deletions
        (s.scene.disk.landing directory ++ [Manifest.fileName]))).content?
          (s.scene.disk.landing directory ++ [Manifest.fileName]) = none := by
      rw [content?_eq, view_deletions sound nonempty, if_pos (List.prefix_refl _)]
      rfl
    rw [← first] at soundFirst thins gone
    -- As soon as the manifest has gone the collection is opened, whatever else goes behind it.
    have lands : ((removeFile (directory / Manifest.fileName)).after s).scene.disk.landing
        directory = s.scene.disk.landing directory := landing_congr thins.current
    obtain ⟨rest, last⟩ : Throughout _ (removeIfPresent directory) _ ∧ _ :=
      thins_removeIfPresent soundFirst
        (fun names target seen => linkless names target (thins.within _ _ seen)) (lands ▸ inner)
    rw [lands] at rest
    have opened : Unsealing s.scene.disk (s.scene.disk.landing directory)
        ((removeFile (directory / Manifest.fileName)).after s).scene.disk :=
      .of_thins thins gone (.refl _)
    have early : Throughout (Unsealing s.scene.disk (s.scene.disk.landing directory))
        (removeFile (directory / Manifest.fileName)) s := by
      intro done part
      rw [ledger_congr left] at part
      rw [left] at opened
      exact throughout_perform (.refl _ _) opened done part
    have late := rest.imp fun d => Unsealing.of_thins thins gone
    refine ⟨throughout_bind quietFile (fun _ => quiet) early fun _ _ => ?_, ?_⟩
    · exact throughout_bind (quiet_removeIfPresent _) (fun _ => .pure _) late fun _ _ =>
        throughout_of_still rfl (late.after (quiet_removeIfPresent _))
    · have behind : (Cleanup.dropCollection directory).after s =
          (removeIfPresent directory).after
            ((removeFile (directory / Manifest.fileName)).after s) := by
        unfold Cleanup.dropCollection
        rw [after_bind_of_ok passed, after_bind]
        split <;> rfl
      rw [behind]
      exact last

end Collection

end DialectBench

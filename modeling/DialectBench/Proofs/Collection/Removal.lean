import DialectBench.Proofs.Collection.Steps

/-! Removing the directories that were copied: nothing else goes, and each of them goes with all that is
in it. -/

namespace DialectBench

open Disk Action

variable {d : Disk} {root : Path} {home : Location} {sub : List String}
  {subs : List (List String)} {s : Session}

namespace Disk

/-- The place of a directory of the workspace, or one below. -/
def InAny (home : Location) (subs : List (List String)) (place : Location) : Prop :=
  ∃ sub ∈ subs, home ++ sub <+: place

/-- A workspace from which directories are being removed: its path leads to it as long as it leads
anywhere, no link is in it, and the entries fit together. -/
structure Emptied (d : Disk) (root : Path) (home : Location) : Prop where
  /-- The entries fit together. -/
  sound : d.Sound
  /-- No link is in the workspace. -/
  linkless : d.Linkless home
  /-- The path of the workspace has a text. -/
  named : root.IsNamed
  /-- It leads to the workspace or nowhere. -/
  only : ∀ other, d.Leads root other → other = home

/-- A workspace to which its path leads. -/
theorem Leads.emptied (leads : d.Leads root home) (sound : d.Sound) (linkless : d.Linkless home) :
    d.Emptied root home :=
  ⟨sound, linkless, leads.named, fun _ again => again.unique leads⟩

/-- Entries that are gone leave the workspace what it is. -/
theorem Emptied.thin {e : Disk} {lost : Location → Prop} (emptied : d.Emptied root home)
    (thins : d.Thins lost e) (sound : e.Sound) : e.Emptied root home where
  sound := sound
  linkless names target seen := emptied.linkless names target (thins.within _ _ seen)
  named := emptied.named
  only other leads := emptied.only other (leads.mono thins.within thins.current.symm)

end Disk

namespace Action

/-- Removing a directory of the workspace removes all that is in it, or nothing if the path does not
lead there. -/
theorem deleteTree_cases (emptied : s.scene.disk.Emptied root home) (nonempty : sub ≠ [])
    (plain : ∀ name ∈ sub, IsPlain name) :
    (∃ failure, (deleteTree (root.extend sub)).outcome s = .error failure ∧
        (deleteTree (root.extend sub)).after s = s ∧
        (s.scene.disk.Leads root home → s.scene.disk.isDirectoryAt (home ++ sub) = false)) ∨
      (deleteTree (root.extend sub)).outcome s = .ok () ∧
        (deleteTree (root.extend sub)).ledger s = s.scene.disk.deletions (home ++ sub) := by
  -- Whether anything is removed is settled when the path is looked up.
  cases removing : s.scene.disk.removingTree (root.extend sub) with
  | error refusal =>
    obtain ⟨failed, still⟩ := deleteTree_of_error removing
    refine Or.inl ⟨_, failed, still, fun leads => ?_⟩
    rw [← Bool.not_eq_true]
    -- A directory that stands there would have been found by a path that leads there.
    intro stands
    obtain ⟨modified, there⟩ := find?_of_isDirectoryAt stands
    have resolved : s.scene.disk.resolve (root.extend sub) false = _ :=
      leads.resolve_below_eq emptied.sound emptied.linkless plain nonempty
        (emptied.sound.isDirectoryAt_dropLast stands)
    rw [removingTree, resolved, there] at removing
    simp at removing
  | ok changes =>
    obtain ⟨passed, left⟩ := deleteTree_of_ok removing
    refine Or.inr ⟨passed, ?_⟩
    rw [ledger_congr left, ledger_performAll]
    unfold removingTree at removing
    cases resolved : s.scene.disk.resolve (root.extend sub) false with
    | error refusal => simp [resolved] at removing
    | ok spot =>
      -- What the path leads to is below the directory of the workspace, and no link is on the way.
      obtain ⟨outer, leads⟩ := leads_of_resolve_extend emptied.named plain nonempty resolved
      obtain rfl := emptied.only outer leads
      obtain ⟨rfl, -⟩ := leads.resolve_below emptied.linkless plain nonempty resolved
      rw [resolved] at removing
      split at removing
      next place modified same =>
        obtain ⟨rfl, -⟩ := Spot.mk.inj (Except.ok.inj same)
        exact (Except.ok.inj removing).symm
      next place target same =>
        obtain ⟨rfl, found⟩ := Spot.mk.inj (Except.ok.inj same)
        exact absurd (view_eq_link.mpr found) (emptied.linkless sub target)
      all_goals simp at removing

/-- While a directory of the workspace is removed nothing else goes. -/
theorem thins_deleteTree (emptied : s.scene.disk.Emptied root home) (nonempty : sub ≠ [])
    (plain : ∀ name ∈ sub, IsPlain name) :
    Throughout (s.scene.disk.Thins (home ++ sub <+: ·)) (deleteTree (root.extend sub)) s := by
  intro done part
  rcases deleteTree_cases emptied nonempty plain with ⟨failure, -, still, -⟩ | ⟨-, changes⟩
  · have none : (deleteTree (root.extend sub)).ledger s = [] := ledger_eq_of (by rw [still]; rfl)
    rw [none, List.prefix_nil] at part
    rw [part]
    exact .refl _
  · rw [changes] at part
    exact thins_of_prefix_deletions emptied.sound (by simp [nonempty]) part

/-- When a directory of the workspace has been removed the entries still fit together. -/
theorem emptied_deleteTree (emptied : s.scene.disk.Emptied root home) (nonempty : sub ≠ [])
    (plain : ∀ name ∈ sub, IsPlain name) :
    ((deleteTree (root.extend sub)).after s).scene.disk.Emptied root home := by
  have quiet : (deleteTree (root.extend sub)).Quiet := quiet_deleteTree _
  have thins := (thins_deleteTree emptied nonempty plain).after quiet
  refine emptied.thin thins ?_
  rcases deleteTree_cases emptied nonempty plain with ⟨failure, -, still, -⟩ | ⟨-, changes⟩
  · rw [still]
    exact emptied.sound
  · rw [(quiet.recorded s).2, changes]
    exact emptied.sound.deletions (by simp [nonempty])

/-- As long as the path of the workspace leads there, nothing is left of a directory that was removed. -/
theorem gone_deleteTree (emptied : s.scene.disk.Emptied root home) (nonempty : sub ≠ [])
    (plain : ∀ name ∈ sub, IsPlain name) (leads : s.scene.disk.Leads root home)
    (kind : s.scene.disk.isDirectoryAt (home ++ sub) = true ∨
      s.scene.disk.view (home ++ sub) = none) (names : List String) :
    ((deleteTree (root.extend sub)).after s).scene.disk.view (home ++ sub ++ names) = none := by
  rcases deleteTree_cases emptied nonempty plain with ⟨failure, -, still, absent⟩ | ⟨-, changes⟩
  · rw [still]
    refine emptied.sound.view_eq_none_of_append (kind.resolve_left fun stands => ?_)
    simp [absent leads] at stands
  · rw [((quiet_deleteTree _).recorded s).2, changes,
      view_deletions emptied.sound (by simp [nonempty]), if_pos (List.prefix_append _ _)]

end Action

namespace Collection

/-- Removes one directory that was copied, or tells that it stays. -/
def clearSource (source : Path) : Action Unit := do
  match ← Action.attempt (Action.deleteTree source) with
  | .ok _ => return ()
  | .error _ => Action.warn "failed to remove collected source"

/-- What was copied is removed directory by directory. -/
theorem clearSources_cons (source : Path) (sources : List Path) :
    clearSources (source :: sources) = clearSource source >>= fun _ => clearSources sources := by
  rw [clearSource, bind_assoc]
  refine bind_congr fun result => ?_
  cases result with
  | ok _ => simp only [pure_bind]
  | error _ => rfl

/-- Removing a directory that was copied is quiet. -/
theorem quiet_clearSource (source : Path) : (clearSource source).Quiet := by
  refine (quiet_deleteTree source).attempt.bind fun result => ?_
  cases result with
  | ok _ => exact .pure ()
  | error _ => exact quiet_warn _

/-- Removing a directory that was copied never fails, and removes what can be removed. -/
theorem clearSource_eq (source : Path) (s : Session) :
    (clearSource source).outcome s = .ok () ∧
      (clearSource source).ledger s = (Action.deleteTree source).ledger s := by
  have attempted := outcome_attempt (Action.deleteTree source) s
  unfold clearSource
  -- If the removal fails, the failure is told, and what is told changes nothing.
  cases passed : (Action.deleteTree source).outcome s with
  | ok value =>
    rw [passed] at attempted
    refine ⟨outcome_bind_of_ok attempted _, ledger_congr ?_⟩
    rw [after_bind_of_ok attempted, after_attempt]
    rfl
  | error failure =>
    rw [passed] at attempted
    refine ⟨outcome_bind_of_ok attempted _, ledger_eq_of ?_⟩
    rw [after_bind_of_ok attempted, after_attempt]
    exact ((quiet_deleteTree source).recorded s).1

/-- Removing what was copied removes nothing else. -/
theorem thins_clearSources (emptied : s.scene.disk.Emptied root home)
    (plain : ∀ sub ∈ subs, sub ≠ [] ∧ ∀ name ∈ sub, IsPlain name) :
    Throughout (s.scene.disk.Thins (InAny home subs)) (clearSources (subs.map root.extend)) s ∧
      ((clearSources (subs.map root.extend)).after s).scene.disk.Emptied root home := by
  -- By induction on what was copied: one directory is removed, and the rest below what is left.
  induction subs generalizing s with
  | nil => exact ⟨throughout_of_still rfl (.refl _), emptied⟩
  | cons sub rest ih =>
    obtain ⟨⟨nonempty, known⟩, others⟩ := List.forall_mem_cons.mp plain
    obtain ⟨passed, changes⟩ := clearSource_eq (root.extend sub) s
    have quiet := quiet_clearSource (root.extend sub)
    -- As far as the disk goes, the attempt does what the removal does.
    have tree : ((clearSource (root.extend sub)).after s).scene.disk =
        ((Action.deleteTree (root.extend sub)).after s).scene.disk := by
      rw [(quiet.recorded s).2, ((quiet_deleteTree _).recorded s).2, changes]
    have first := thins_deleteTree emptied nonempty known
    have left := emptied_deleteTree emptied nonempty known
    rw [← tree] at left
    obtain ⟨behind, last⟩ := ih left others
    rw [List.map_cons, clearSources_cons]
    have own : ∀ place, home ++ sub <+: place → InAny home (sub :: rest) place :=
      fun place inside => ⟨sub, by simp, inside⟩
    have early : Throughout (s.scene.disk.Thins (InAny home (sub :: rest)))
        (clearSource (root.extend sub)) s := by
      intro done part
      rw [changes] at part
      exact (first done part).imp own
    refine ⟨throughout_bind quiet (fun _ => quiet_clearSources _) early fun _ _ => ?_, ?_⟩
    · exact behind.imp fun d thins => (early.after quiet).trans (thins.imp
        fun place ⟨other, member, inside⟩ => ⟨other, by simp [member], inside⟩)
    · rw [after_bind_of_ok passed]
      exact last

/-- If in the end the path of the workspace leads there, nothing is left of what was copied. -/
theorem gone_clearSources (emptied : s.scene.disk.Emptied root home)
    (plain : ∀ sub ∈ subs, sub ≠ [] ∧ ∀ name ∈ sub, IsPlain name)
    (kind : ∀ sub ∈ subs, s.scene.disk.isDirectoryAt (home ++ sub) = true ∨
      s.scene.disk.view (home ++ sub) = none)
    (leads : ((clearSources (subs.map root.extend)).after s).scene.disk.Leads root home) :
    ∀ sub ∈ subs, ∀ names,
      ((clearSources (subs.map root.extend)).after s).scene.disk.view (home ++ sub ++ names) =
        none := by
  induction subs generalizing s with
  | nil => simp
  | cons sub rest ih =>
    obtain ⟨⟨nonempty, known⟩, others⟩ := List.forall_mem_cons.mp plain
    obtain ⟨own, kinds⟩ := List.forall_mem_cons.mp kind
    obtain ⟨passed, changes⟩ := clearSource_eq (root.extend sub) s
    have quiet := quiet_clearSource (root.extend sub)
    have tree : ((clearSource (root.extend sub)).after s).scene.disk =
        ((Action.deleteTree (root.extend sub)).after s).scene.disk := by
      rw [(quiet.recorded s).2, ((quiet_deleteTree _).recorded s).2, changes]
    have left := emptied_deleteTree emptied nonempty known
    have first := (thins_deleteTree emptied nonempty known).after (quiet_deleteTree _)
    rw [← tree] at left first
    obtain ⟨behind, -⟩ := thins_clearSources left others
    rw [List.map_cons, clearSources_cons, after_bind_of_ok passed] at leads ⊢
    have second := behind.after (quiet_clearSources _)
    -- A path that leads there in the end did so before each removal.
    have middle := leads.mono second.within second.current.symm
    have start := middle.mono first.within first.current.symm
    -- What is gone stays gone, as the later removals only take away.
    refine List.forall_mem_cons.mpr ⟨fun names => ?_, ih left others (fun other member => ?_) leads⟩
    · have none := gone_deleteTree emptied nonempty known start own names
      rw [← tree] at none
      rcases second.seen (home ++ sub ++ names) with same | ⟨-, gone⟩
      · rw [same, none]
      · exact gone
    · rcases first.seen (home ++ other) with same | ⟨-, gone⟩
      · rw [← view_eq_directory, same, view_eq_directory]
        exact kinds other member
      · exact Or.inr gone

end Collection

end DialectBench

import DialectBench.Proofs.Disk.Clearing

/-! Trees in which exactly what was at some places is gone. -/

namespace DialectBench.Disk

variable {d e : Disk} {gone : Location → Prop}

/-- In a sound tree what was at some places is gone, and everything else is as it was. -/
structure Clears (d : Disk) (gone : Location → Prop) (e : Disk) : Prop where
  /-- The entries fit together. -/
  sound : e.Sound
  /-- The current directory is the same. -/
  current : e.current = d.current
  /-- Nothing is left at the places. -/
  free : ∀ place, gone place → e.view place = none
  /-- Everything else is as it was. -/
  kept : ∀ place, ¬ gone place → e.view place = d.view place

/-- A tree that has lost nothing else, and has nothing left there, has lost exactly that. -/
theorem Clears.of_thins (sound : e.Sound) (thins : d.Thins gone e)
    (free : ∀ place, gone place → e.view place = none) : d.Clears gone e :=
  ⟨sound, thins.current, free, fun place spared =>
    (thins.seen place).resolve_right fun lost => spared lost.1⟩

/-- Nothing else is gone. -/
theorem Clears.thins (clears : d.Clears gone e) : d.Thins gone e := by
  refine ⟨clears.current, fun place => ?_⟩
  by_cases lost : gone place
  · exact .inr ⟨lost, clears.free place lost⟩
  · exact .inl (clears.kept place lost)

/-- What is left was there before. -/
theorem Clears.within (clears : d.Clears gone e) : e.Within d :=
  clears.thins.within

/-- A tree from which directories were removed in turn, each with all in it. -/
def cleared (d : Disk) : List Location → Disk
  | [] => d
  | place :: places => (d.applyAll (d.deletions place)).cleared places

/-- The directories that are removed are gone with what was in them, and nothing else is. -/
theorem clears_cleared {places : List Location} (sound : d.Sound) (inner : ∀ place ∈ places, place ≠ []) :
    d.Clears (fun other => ∃ place ∈ places, place <+: other) (d.cleared places) := by
  induction places generalizing d with
  | nil => exact ⟨sound, rfl, by simp, fun _ _ => rfl⟩
  | cons first places ih =>
    obtain ⟨own, others⟩ := List.forall_mem_cons.mp inner
    obtain ⟨left, thins⟩ := clear_deletions sound first
    obtain ⟨still, current, free, kept⟩ := ih left others
    refine ⟨still, current.trans thins.current, fun other lost => ?_, fun other spared => ?_⟩
    · by_cases later : ∃ place ∈ places, place <+: other
      · exact free other later
      · -- What is in none of the later directories was in the first one.
        obtain ⟨place, listed, inside⟩ := lost
        rcases List.mem_cons.mp listed with rfl | member
        · exact (kept other later).trans ((view_deletions sound own other).trans (if_pos inside))
        · exact absurd ⟨place, member, inside⟩ later
    · rw [List.exists_mem_cons_iff, not_or] at spared
      exact (kept other spared.2).trans ((view_deletions sound own other).trans (if_neg spared.1))

end DialectBench.Disk

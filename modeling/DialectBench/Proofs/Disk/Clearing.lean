import DialectBench.Proofs.Disk.Lead
import Mathlib.Data.List.Nodup

/-! Removing a directory with all in it, one entry after the other. -/

namespace DialectBench

namespace Disk

variable {d : Disk} {place other : Location}

/-- Entries that are removed one after the other are no longer seen. -/
theorem view_deletes {gone : List Location} (inner : ∀ place ∈ gone, place ≠ []) :
    (d.applyAll (gone.map .delete)).view other = if other ∈ gone then none else d.view other := by
  -- The first entry is removed in the given tree, the others in what is left of it.
  induction gone generalizing d with
  | nil => rfl
  | cons first gone ih =>
    obtain ⟨some, others⟩ := List.forall_mem_cons.mp inner
    have rest : (d.applyAll ((first :: gone).map .delete)).view other =
        ((d.apply (.delete first)).applyAll (gone.map .delete)).view other := rfl
    rw [rest, ih others, view_delete some]
    by_cases later : other ∈ gone
    · simp [later]
    · by_cases own : other = first <;> simp [later, own]

/-- Entries that are removed one after the other are no longer listed. -/
theorem places_deletes (d : Disk) (gone : List Location) :
    (d.applyAll (gone.map .delete)).places = d.places.filter fun place => place ∉ gone := by
  induction gone generalizing d with
  | nil => simp [applyAll]
  | cons first gone ih =>
    have rest : (d.applyAll ((first :: gone).map .delete)).places =
        ((d.apply (.delete first)).applyAll (gone.map .delete)).places := rfl
    rw [rest, ih, places_delete, List.filter_filter]
    refine List.filter_congr fun place _ => ?_
    by_cases own : place = first <;> simp [own]

/-- Removing entries is no move. -/
theorem current_deletes (d : Disk) (gone : List Location) :
    (d.applyAll (gone.map .delete)).current = d.current := by
  induction gone generalizing d with
  | nil => rfl
  | cons first gone ih => exact ih (d.apply (.delete first))

/-- What is removed with a directory is what is below it and the directory itself. -/
theorem deletions_eq (sound : d.Sound) (place : Location) :
    ∃ gone : List Location, d.deletions place = gone.map .delete ∧
      ∀ other, other ∈ gone ↔ other = place ∨
        (place <+: other ∧ other ≠ place ∧ d.view other ≠ none) := by
  refine ⟨(inOrder (fun a b => (orderNames b a).isLE) ((d.below place).map Prod.fst)).map
    (place ++ ·) ++ [place], by simp [deletions], fun other => ?_⟩
  rw [List.mem_append, List.mem_singleton, or_comm, List.mem_map]
  -- What is below the place in the list is what can be seen below it in the tree.
  refine or_congr_right ⟨?_, ?_⟩
  · rintro ⟨names, member, rfl⟩
    obtain ⟨⟨names, node⟩, entry, rfl⟩ := List.mem_map.mp (mem_inOrder.mp member)
    obtain ⟨some, found⟩ := sound.mem_below.mp entry
    refine ⟨List.prefix_append _ _, by simpa using some, ?_⟩
    rw [ne_eq, view_eq_none]
    simp [found]
  · rintro ⟨⟨names, rfl⟩, apart, seen⟩
    rw [ne_eq, view_eq_none] at seen
    obtain ⟨node, found⟩ := Option.ne_none_iff_exists'.mp seen
    refine ⟨names, mem_inOrder.mpr (List.mem_map.mpr ⟨(names, node), ?_, rfl⟩), rfl⟩
    exact sound.mem_below.mpr ⟨by simpa using apart, found⟩

/-- When a directory was removed nothing is left at it and below it, and everything else is as it
was. -/
theorem view_deletions (sound : d.Sound) (some : place ≠ []) (other : Location) :
    (d.applyAll (d.deletions place)).view other =
      if place <+: other then none else d.view other := by
  obtain ⟨gone, same, member⟩ := deletions_eq sound place
  -- The place is not the root, and neither is anything below it.
  have inner : ∀ other ∈ gone, other ≠ [] := by
    intro other listed
    rcases (member other).mp listed with rfl | ⟨within, -, -⟩
    · exact some
    · rintro rfl
      exact some (List.prefix_nil.mp within)
  rw [same, view_deletes inner]
  -- All that was seen at or below the place is among what was removed, and nothing else is.
  by_cases within : place <+: other
  · rw [if_pos within]
    split
    · rfl
    next kept =>
      by_contra seen
      by_cases own : other = place
      · exact kept ((member other).mpr (Or.inl own))
      · exact kept ((member other).mpr (Or.inr ⟨within, own, seen⟩))
  · rw [if_neg within, if_neg]
    intro listed
    rcases (member other).mp listed with rfl | ⟨below, -⟩
    · exact within (List.prefix_refl _)
    · exact within below

/-- A tree differs from another one in entries at some places alone, which are gone. -/
structure Thins (d : Disk) (lost : Location → Prop) (e : Disk) : Prop where
  /-- The current directory is the same. -/
  current : e.current = d.current
  /-- Every entry is as it was, or gone. -/
  seen : ∀ place, e.view place = d.view place ∨ (lost place ∧ e.view place = none)

namespace Thins

variable {e f : Disk} {lost : Location → Prop}

/-- Nothing has to be gone. -/
theorem refl (d : Disk) : d.Thins lost d := ⟨rfl, fun _ => Or.inl rfl⟩

/-- More entries may be gone later. -/
theorem trans (first : d.Thins lost e) (second : e.Thins lost f) : d.Thins lost f := by
  refine ⟨second.current.trans first.current, fun place => ?_⟩
  rcases second.seen place with same | gone
  · rw [same]
    exact first.seen place
  · exact Or.inr gone

/-- What is lost at some places is lost at more of them. -/
theorem imp {more : Location → Prop} (thins : d.Thins lost e)
    (implies : ∀ place, lost place → more place) : d.Thins more e :=
  ⟨thins.current, fun place => (thins.seen place).imp_right fun gone =>
    ⟨implies place gone.1, gone.2⟩⟩

/-- What is left was there before. -/
theorem within (thins : d.Thins lost e) : e.Within d := by
  intro place node there
  rcases thins.seen place with same | ⟨-, gone⟩
  · rw [← same, there]
  · rw [gone] at there
    simp at there

/-- A content is as it was, or gone. -/
theorem content?_eq (thins : d.Thins lost e) (place : Location) :
    e.content? place = d.content? place ∨ (lost place ∧ e.content? place = none) := by
  refine (thins.seen place).imp content?_congr fun ⟨free, gone⟩ => ⟨free, ?_⟩
  rw [Disk.content?_eq, gone]
  rfl

/-- Where nothing can be lost a content is as it was. -/
theorem content?_of_not (thins : d.Thins lost e) (safe : ¬ lost place) :
    e.content? place = d.content? place :=
  (thins.content?_eq place).resolve_right fun gone => safe gone.1

end Thins

/-- While a directory is removed, nothing is lost but what is in it. -/
theorem thins_of_prefix_deletions {done : List Change} (sound : d.Sound) (some : place ≠ [])
    (first : done <+: d.deletions place) : d.Thins (place <+: ·) (d.applyAll done) := by
  obtain ⟨gone, same, member⟩ := deletions_eq sound place
  -- A part of the removal removes a part of the entries, still in the order from below.
  obtain ⟨early, prior, rfl⟩ : ∃ early, early <+: gone ∧ done = early.map .delete := by
    rw [same] at first
    exact List.prefix_map_iff.mp first |>.imp fun early both => ⟨both.1, both.2⟩
  have inner : ∀ other ∈ early, other ≠ [] ∧ place <+: other := by
    intro other listed
    rcases (member other).mp (prior.subset listed) with rfl | ⟨within, -, -⟩
    · exact ⟨some, List.prefix_refl _⟩
    · refine ⟨?_, within⟩
      rintro rfl
      exact some (List.prefix_nil.mp within)
  -- What is removed so far lies at or below the place, and everything else is seen as before.
  refine ⟨current_deletes d early, fun other => ?_⟩
  rw [view_deletes fun other listed => (inner other listed).1]
  by_cases listed : other ∈ early
  · exact Or.inr ⟨(inner other listed).2, by rw [if_pos listed]⟩
  · exact Or.inl (by rw [if_neg listed])

/-- A sound tree from which a directory was removed is sound. -/
theorem Sound.deletions (sound : d.Sound) (some : place ≠ []) :
    (d.applyAll (d.deletions place)).Sound := by
  have view := view_deletions sound some
  obtain ⟨gone, same, member⟩ := deletions_eq sound place
  have places : (d.applyAll (d.deletions place)).places =
      d.places.filter fun place => place ∉ gone := by
    rw [same, places_deletes]
  -- An entry that is still listed was not removed, so it is not below the place.
  have kept : ∀ other ∈ (d.applyAll (d.deletions place)).places,
      other ∈ d.places ∧ ¬ place <+: other := by
    intro other listed
    rw [places, List.mem_filter] at listed
    refine ⟨listed.1, fun within => ?_⟩
    have absent : other ∉ gone := by simpa using listed.2
    refine absent ((member other).mpr ?_)
    by_cases own : other = place
    · exact Or.inl own
    · refine Or.inr ⟨within, own, ?_⟩
      rw [ne_eq, view_eq_none]
      exact (find?_ne_none (sound.inner other listed.1)).mpr listed.1
  refine ⟨?_, fun other listed => sound.inner other (kept other listed).1,
    fun other listed => sound.plain other (kept other listed).1, fun other listed => ?_⟩
  · rw [places]
    exact sound.distinct.filter _
  · -- What lies above an entry that is kept is kept, too.
    obtain ⟨before, apart⟩ := kept other listed
    rw [← view_eq_directory, view, if_neg]
    · exact view_eq_directory.mpr (sound.housed other before)
    · exact fun within => apart (within.trans (List.dropLast_prefix other))

/-- Nothing is below what is no directory, so it is removed alone. -/
theorem deletions_of_not_isDirectoryAt (sound : d.Sound) (leaf : d.isDirectoryAt place = false) :
    d.deletions place = [.delete place] := by
  have none : d.below place = [] := by
    refine List.eq_nil_iff_forall_not_mem.mpr fun entry member => ?_
    obtain ⟨some, found⟩ := sound.mem_below.mp member
    have seen : d.view (place ++ entry.1) ≠ none := by
      rw [ne_eq, view_eq_none]
      simp [found]
    simp [sound.isDirectoryAt_of_append some seen] at leaf
  simp [deletions, none]

/-- A tree without entries is sound. -/
theorem sound_of_bare (bare : d.places = []) : d.Sound := by
  constructor <;> simp [bare]

/-- When everything was removed nothing is left. -/
theorem places_deletions_root (sound : d.Sound) : (d.applyAll (d.deletions [])).places = [] := by
  obtain ⟨gone, same, member⟩ := deletions_eq sound []
  rw [same, places_deletes, List.filter_eq_nil_iff]
  intro other listed
  have some := sound.inner other listed
  have seen : d.view other ≠ none := mt view_eq_none.mp ((find?_ne_none some).mpr listed)
  simpa using (member other).mpr (Or.inr ⟨List.nil_prefix, some, seen⟩)

/-- When a directory was removed what is left is sound, and nothing is lost but what was in it. -/
theorem clear_deletions (sound : d.Sound) (place : Location) :
    (d.applyAll (d.deletions place)).Sound ∧
      d.Thins (place <+: ·) (d.applyAll (d.deletions place)) := by
  -- When the root is emptied no entry is left, so that the rest holds of a bare tree.
  by_cases root : place = []
  · subst root
    have bare := places_deletions_root sound
    obtain ⟨gone, same, -⟩ := deletions_eq sound []
    refine ⟨sound_of_bare bare, same ▸ current_deletes d gone, fun other => ?_⟩
    by_cases top : other = []
    · exact Or.inl (by rw [top, view_root, view_root])
    · refine Or.inr ⟨List.nil_prefix, ?_⟩
      by_contra seen
      have listed := mem_places top seen
      rw [bare] at listed
      cases listed
  · exact ⟨sound.deletions root, thins_of_prefix_deletions sound root (List.prefix_refl _)⟩

/-- What may be removed is what the path leads to: a directory with all in it, or a link, in which
nothing is. -/
theorem exists_deletions {p : Path} {changes : List Change} (sound : d.Sound)
    (removing : d.removingTree p = .ok changes) :
    ∃ place node, d.resolve p false = .ok ⟨place, some node⟩ ∧ changes = d.deletions place := by
  unfold removingTree at removing
  -- Either a directory is there, or a link that is removed itself.
  split at removing
  next place _ resolved => exact ⟨place, _, resolved, (Except.ok.inj removing).symm⟩
  next place target resolved =>
    obtain rfl := Except.ok.inj removing
    refine ⟨place, _, resolved, ?_⟩
    -- Below a link nothing is listed, so its removal is that of the place alone.
    rw [resolve_eq (isNamed_of_resolve resolved)] at resolved
    have link : d.find? place = some (.link target) := (goes_or_ends resolved).1.symm
    exact (deletions_of_not_isDirectoryAt sound (by
      simp [isDirectoryAt, link, Node.isDirectory])).symm
  all_goals simp at removing

end Disk

end DialectBench

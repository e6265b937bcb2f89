import DialectBench.Proofs.Collection.Steps

/-! What a collection that fails leaves behind: nothing but empty directories on the way to its own. -/

namespace DialectBench

open Disk Action

namespace Collection

/-- Nothing is left of a collection but directories that were made on the way to its own. -/
structure Withdrawn (before : Disk) (directory : Path) (made : List Location) (after : Disk) :
    Prop where
  /-- Apart from the new directories the tree is as it was. -/
  view_eq : ∀ place,
    after.view place = if place ∈ made then some (.directory 0) else before.view place
  /-- Where they are there was nothing before. -/
  vacant : ∀ place ∈ made, before.view place = none
  /-- Nothing is in them but others of them. -/
  empty : ∀ place ∈ made, ∀ names, after.view (place ++ names) ≠ none → place ++ names ∈ made
  /-- A path above that of the collection leads to each of them. -/
  led : ∀ place ∈ made, ∃ outer rest, rest ≠ [] ∧ outer.Precedes directory rest ∧
    after.Leads outer place
  /-- If the path of the collection led somewhere before, nothing at all has changed. -/
  there : before.exists? directory = true → after = before
  /-- If it led nowhere and does not go up, it leads nowhere now. -/
  gone : before.exists? directory = false → Step.up ∉ directory.steps →
    after.exists? directory = false

variable {base : Disk} {place : Location} {request : CollectionOrder} {s : Session}
  {made : List Location} {failure : Failure}

/-- What is made on the way to a collection is all that a tree may differ by. -/
theorem Withdrawn.of_view {after between : Disk} {directory : Path} (sound : s.scene.disk.Sound)
    (paves : (prepareParent directory).Paves directory s made)
    (between_eq : between = ((prepareParent directory).after s).scene.disk)
    (current : after.current = between.current) (same : ∀ place, after.view place = between.view place)
    (there : s.scene.disk.exists? directory = true → after = s.scene.disk)
    (gone : s.scene.disk.exists? directory = false → Step.up ∉ directory.steps →
      after.exists? directory = false) :
    Withdrawn s.scene.disk directory made after := by
  subst between_eq
  -- Seen from outside, the tree has the directories that were made, and is as before elsewhere.
  have view_eq (place : Location) :
      after.view place =
        if place ∈ made then some (.directory 0) else s.scene.disk.view place := by
    rw [same, paves.makes.view_eq]
  have within : ((prepareParent directory).after s).scene.disk.Within after :=
    fun place node seen => (same place).trans seen
  refine ⟨view_eq, fun place member => paves.makes.vacant member, fun place member names seen => ?_,
    fun place member => ?_, there, gone⟩
  · rw [view_eq] at seen
    by_contra outside
    rw [if_neg outside] at seen
    exact seen (sound.view_eq_none_of_append (paves.makes.vacant member))
  · obtain ⟨outer, rest, some, precedes, leads⟩ := paves.led place member
    exact ⟨outer, rest, some, precedes, leads.mono within current⟩

/-- When a directory that was filled is discarded, the tree is as it was before it was made. -/
theorem view_discarded {between : Disk} {directory : Path} {t : Session}
    (fits : between.Fits place) (sound : between.Sound)
    (base_eq : base = between.apply (.makeDirectory place)) (founded : base.Founded directory place)
    (housed : base.Housed place t.scene.disk) :
    ((discard directory).after t).scene.disk.current = between.current ∧
      ∀ other, ((discard directory).after t).scene.disk.view other = between.view other := by
  obtain ⟨-, changes⟩ := discard_eq founded housed
  obtain ⟨gone, deletes, -⟩ := deletions_eq housed.sound place
  -- What is deleted is the directory of the collection and all below it.
  rw [((quiet_discard directory).recorded t).2, changes]
  refine ⟨?_, fun other => ?_⟩
  · rw [deletes, current_deletes, housed.current, base_eq]
    rfl
  · rw [view_deletions housed.sound founded.ne_nil]
    split
    next inside =>
      obtain ⟨names, rfl⟩ := inside
      exact (sound.view_eq_none_of_append (view_eq_none.mpr fits.vacant)).symm
    next outside =>
      have apart : other ≠ place := by
        rintro rfl
        exact outside (List.prefix_refl _)
      rw [housed.outside other outside, base_eq, view_makeDirectory fits.vacant, if_neg apart]

end Collection

/-- A workspace without results, and a directory beside it. -/
def Disk.idle : Disk where
  entries := [(["ws"], .directory 0), (["out-T"], .directory 0)]
  current := []
  clock := 0

/-- A session with a workspace without results. -/
def Session.idle : Session where
  scene := ⟨Disk.idle, false, ⟨"20250101-000000", "2025-01-01T00:00:00Z"⟩⟩

/-- A request to collect from the workspace into a directory that is to be made. -/
def CollectionOrder.idle : CollectionOrder where
  root := ⟨"/ws"⟩
  destination := ⟨"/runs/out"⟩
  timestamp := "T"

namespace Collection

end Collection

end DialectBench

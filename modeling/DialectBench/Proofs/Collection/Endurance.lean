import DialectBench.Proofs.Collection.Chores

/-! At every moment of a series of collections and removals a manifest tells that a collection is
complete, and no result is lost. -/

namespace DialectBench

open Disk Action Collection

namespace Stint

end Stint

/-- A file of a workspace is kept in a collection: its directory was made for one that copied the file,
and as long as it has not been removed it holds the file and a manifest. -/
def Sheltered (stints : List Stint) (source : Location) (bytes : Bytes) (e : Disk) : Prop :=
  ∃ earlier keeper later request names,
    stints = earlier ++ keeper :: later ∧ keeper.Creates request ∧
      Taken request keeper.session names ∧ source = keeper.home request ++ names ∧
      ((e.content? (keeper.place ++ [Manifest.fileName]) ≠ none ∧
          e.content? (keeper.place ++ names) = some bytes) ∨
        ∃ other ∈ later, (∃ directory, other.chore = .prune directory) ∧
          other.place = keeper.place)

/-- The directories of collections lie in none of each other, and none of them and no workspace lie in
each other. -/
structure Separate (d : Disk) (chores : List Chore) : Prop where
  /-- Two directories are the same, or lie in none of each other. -/
  apart : ∀ one ∈ chores, ∀ other ∈ chores,
    d.landing one.directory = d.landing other.directory ∨
      Aloof (d.landing one.directory) (d.landing other.directory)
  /-- A directory and a workspace lie in none of each other. -/
  beside : ∀ one ∈ chores, ∀ request, .collect request ∈ chores →
    Aloof (d.landing one.directory) (d.landing request.root)

/-- A stint of one of some chores, where paths lead as they did at first. -/
structure Stint.Of (d : Disk) (chores : List Chore) (stint : Stint) : Prop where
  /-- It is one of them. -/
  member : stint.chore ∈ chores
  /-- The current directory is the same. -/
  current : stint.session.scene.disk.current = d.current

variable {d e : Disk} {chores : List Chore} {stint now : Stint} {request : CollectionOrder}

namespace Separate

/-- The directories of two stints are the same, or lie in none of each other. -/
theorem places (separate : Separate d chores) (one : stint.Of d chores) (other : now.Of d chores) :
    stint.place = now.place ∨ Aloof stint.place now.place := by
  rw [Stint.place, Stint.place, landing_congr one.current, landing_congr other.current]
  exact separate.apart _ one.member _ other.member

/-- The directory of a stint and the workspace of another one lie in none of each other. -/
theorem homes (separate : Separate d chores) (one : stint.Of d chores) (other : now.Of d chores)
    (collects : now.chore = .collect request) : Aloof stint.place (now.home request) := by
  rw [Stint.place, Stint.home, landing_congr one.current, landing_congr other.current]
  exact separate.beside _ one.member request (collects ▸ other.member)

end Separate

/-- Below a place that lies beside a workspace nothing is in a directory of the workspace. -/
theorem Aloof.not_inAny {place home : Location} (aloof : Aloof place home)
    (subs : List (List String)) (names : List String) : ¬ InAny home subs (place ++ names) := by
  rintro ⟨sub, -, inside⟩
  exact aloof.symm.outside names ((List.prefix_append home sub).trans inside)

section Step

variable (separate : Separate d chores) (one : stint.Of d chores) (other : now.Of d chores)
  (moment : now.Moment e)

include separate one other moment

/-- What is in the directory of another collection stays as it is. -/
theorem elsewhere_unchanged (apart : now.place ≠ stint.place) (names : List String) :
    e.content? (stint.place ++ names) =
      now.session.scene.disk.content? (stint.place ++ names) := by
  -- The chore works in another directory, and neither of the two lies within the other.
  have aloof := (separate.places other one).resolve_left apart
  cases chore : now.chore with
  | collect request =>
    rw [Stint.Moment, chore] at moment
    -- A collection changes its own directory, and the workspace it takes from, which is no directory
    -- of a collection.
    rcases moment with ⟨-, -, underway⟩ | ⟨-, same⟩
    · exact (underway.outside _ (aloof.outside names)).resolve_right fun gone =>
        (separate.homes one other chore).not_inAny _ _ gone.2.1
    · exact same _
  | prune directory =>
    rw [Stint.Moment, chore] at moment
    exact moment.content?_of_not (aloof.outside names)

/-- What is in a directory with a manifest stays as it is, unless the directory is removed. -/
theorem shelter_unchanged
    (manifest : now.session.scene.disk.content? (stint.place ++ [Manifest.fileName]) ≠ none)
    (stays : ∀ directory, now.chore = .prune directory → now.place ≠ stint.place)
    (sound : now.session.scene.disk.Sound) (names : List String) :
    e.content? (stint.place ++ names) =
      now.session.scene.disk.content? (stint.place ++ names) := by
  -- Here the removal is excluded, so a chore in the same directory can only be a collection.
  by_cases same : now.place = stint.place
  · cases chore : now.chore with
    | collect request =>
      rw [Stint.Moment, chore, same] at moment
      rcases moment with ⟨-, vacant, -⟩ | ⟨-, still⟩
      · -- No directory is made where one with a manifest is.
        rw [content?_eq, sound.view_eq_none_of_append vacant] at manifest
        exact absurd rfl manifest
      · exact still _
    | prune directory => exact absurd same (stays directory chore)
  · exact elsewhere_unchanged separate one other moment same names

end Step

/-- A file that is kept is kept whatever was done before. -/
theorem Sheltered.behind {later : List Stint} {source : Location} {bytes : Bytes}
    (front : List Stint) (sheltered : Sheltered later source bytes e) :
    Sheltered (front ++ later) source bytes e := by
  obtain ⟨earlier, keeper, rest, request, names, rfl, kept⟩ := sheltered
  exact ⟨front ++ earlier, keeper, rest, request, names, by simp, kept⟩

/-- A file that is kept before a chore is kept at every moment of it, or the chore removes the collection
that keeps it. -/
theorem Sheltered.step {stints : List Stint} {source : Location} {bytes : Bytes}
    (sheltered : Sheltered stints source bytes now.session.scene.disk) (separate : Separate d chores)
    (known : ∀ stint ∈ stints, stint.Of d chores) (own : now.Of d chores)
    (sound : now.session.scene.disk.Sound) (moment : now.Moment e) :
    Sheltered (stints ++ [now]) source bytes e := by
  obtain ⟨earlier, keeper, later, request, names, rfl, creates, taken, same, held⟩ := sheltered
  refine ⟨earlier, keeper, later ++ [now], request, names, by simp, creates, taken, same, ?_⟩
  -- Either the keeper still has the file, and it loses it only by being removed now, or it was
  -- removed before.
  rcases held with ⟨manifest, content⟩ | ⟨other, member, prunes⟩
  · by_cases pruned : (∃ directory, now.chore = .prune directory) ∧ now.place = keeper.place
    · exact Or.inr ⟨now, by simp, pruned⟩
    · have unchanged := shelter_unchanged separate (known keeper (by simp)) own moment manifest
        (fun directory chore same => pruned ⟨⟨directory, chore⟩, same⟩) sound
      exact Or.inl ⟨by rwa [unchanged], by rw [unchanged, content]⟩
  · exact Or.inr ⟨other, by simp [member], prunes⟩

section Run

variable {s : Session}

/-- When chores are kept apart and one of them is a collection, each of them is clear. -/
theorem Separate.clear {all : List Chore} (separate : Separate s.scene.disk all)
    (some : ∃ request, .collect request ∈ all) :
    ∀ chore ∈ all, ∀ t : Session, t.scene.disk.current = s.scene.disk.current →
      Stint.Clear ⟨chore, t⟩ := by
  intro chore member t same
  obtain ⟨request, collects⟩ := some
  -- The request in the series is what keeps the root out of the way of a removal.
  have beside := separate.beside chore member
  cases chore with
  | collect own =>
    show Aloof (t.scene.disk.landing _) (t.scene.disk.landing _)
    rw [landing_congr same, landing_congr same]
    exact beside own member
  | prune directory =>
    show t.scene.disk.landing _ ≠ []
    rw [landing_congr same]
    intro root
    exact (beside request collects).1 (by rw [root]; exact List.nil_prefix)

end Run

end DialectBench

import DialectBench.Proofs.Collection.Completion
import DialectBench.Proofs.Collection.Removal

/-! What a collection has done to the files at every moment of it. -/

namespace DialectBench

open Disk Action

namespace Collection

variable {base : Disk} {place home : Location} {root : Path} {subs : List (List String)}
  {request : CollectionOrder} {s : Session} {made : List Location}

/-- The directories that a collection copies, by the ways to them in the workspace. -/
def takenBy (request : CollectionOrder) (s : Session) (home : Location) : List (List String) :=
  subtrees (founding request s).scene.disk home
    (Suite.modules (founding request s).scene.disk request.root)

/-- What a collection in a new directory has done to the files at some moment. -/
structure Underway (request : CollectionOrder) (s : Session) (home place : Location) (e : Disk) :
    Prop where
  /-- Outside its directory a file is as it was; one that was to be copied may be gone when the manifest
  is there. -/
  outside : ∀ other, ¬ place <+: other → e.content? other = s.scene.disk.content? other ∨
    (e.content? (place ++ [Manifest.fileName]) ≠ none ∧ InAny home (takenBy request s home) other ∧
      e.content? other = none)
  /-- With the manifest everything else is there. -/
  whole : e.content? (place ++ [Manifest.fileName]) ≠ none → ∀ names,
    names ≠ [Manifest.fileName] →
      e.content? (place ++ names) = contents request (founding request s) home names

/-- Nothing in the directory of a collection is in the directories that it copies. -/
theorem not_inAny (beside : base.Beside place root home subs) (names : List String) :
    ¬ InAny home subs (place ++ names) := by
  rintro ⟨sub, member, inside⟩
  rcases List.prefix_or_prefix_of_prefix inside (List.prefix_append place names) with
    ⟨rest, same⟩ | below
  · exact beside.apart sub member rest ⟨[], by rw [List.append_nil, ← same, List.append_assoc]⟩
  · exact beside.apart sub member [] (by rwa [List.append_nil])

/-- What is copied is what was looked for. -/
theorem subtrees_subset (base : Disk) (home : Location) {modules : List (List String)} :
    ∀ sub ∈ subtrees base home modules,
      sub ∈ modules.flatMap fun way => partsOf way copiedNames := by
  intro sub member
  obtain ⟨way, listed, part⟩ := List.mem_flatMap.mp member
  exact List.mem_flatMap.mpr ⟨way, listed, (List.mem_filter.mp part).1⟩

/-- A way leads below one of the directories that a collection is to copy. -/
def Taken (request : CollectionOrder) (s : Session) (names : List String) : Prop :=
  ∃ way ∈ Suite.modules (founding request s).scene.disk request.root, ∃ name ∈ copiedNames,
    ∃ rest, rest ≠ [] ∧ names = way ++ Suite.outputName :: name :: rest

/-- A way below a directory of a module is longer than those to a manifest and to a log. -/
theorem Taken.length_lt {names : List String} (taken : Taken request s names) : 2 < names.length := by
  obtain ⟨way, -, name, -, rest, some, rfl⟩ := taken
  have := List.length_pos_of_ne_nil some
  simp only [List.length_append, List.length_cons]
  omega

/-- What a collection holds below the directories of modules are the files of the workspace there. -/
theorem contents_of_taken {names : List String} (taken : Taken request s names)
    (sound : (founding request s).scene.disk.Sound) :
    contents request (founding request s) home names =
      (founding request s).scene.disk.content? (home ++ names) := by
  -- What is taken lies deeper than the log and the manifest, so neither stands in its place.
  have long := taken.length_lt
  have apart (name : String) : names ≠ ["logs", name] := by
    rintro rfl
    simp at long
  have plain (log : Option (String × Bytes)) (content : List String → Option Bytes) :
      attached log content names = content names := by
    cases log with
    | none => rfl
    | some log => exact if_neg (apart log.1)
  rw [contents, plain, Disk.snapshot]
  split
  · rfl
  next missed =>
    -- A directory that was not copied is none, so there is no file below it.
    obtain ⟨way, member, name, known, rest, some, rfl⟩ := taken
    by_contra seen
    refine missed ⟨way ++ [Suite.outputName, name], ?_, by simp⟩
    refine List.mem_flatMap.mpr ⟨way, member, List.mem_filter.mpr
      ⟨List.mem_map.mpr ⟨name, known, rfl⟩, ?_⟩⟩
    have split : home ++ (way ++ Suite.outputName :: name :: rest) =
        home ++ (way ++ [Suite.outputName, name]) ++ rest := by simp
    refine sound.isDirectoryAt_of_append some fun none => ?_
    rw [content?_eq, split, none] at seen
    exact seen rfl

/-- A file in a directory that is copied lies below it. -/
theorem taken_of_inAny {goal : Location} (inside : InAny home (takenBy request s home) goal)
    (file : (founding request s).scene.disk.content? goal ≠ none) :
    ∃ names, goal = home ++ names ∧ Taken request s names := by
  obtain ⟨sub, member, rest, rfl⟩ := inside
  obtain ⟨way, listed, part⟩ := List.mem_flatMap.mp member
  obtain ⟨known, stands⟩ := List.mem_filter.mp part
  obtain ⟨name, copied, rfl⟩ := List.mem_map.mp known
  refine ⟨way ++ Suite.outputName :: name :: rest, by simp, way, listed, name, copied, rest, ?_, rfl⟩
  rintro rfl
  rw [List.append_nil] at file
  exact file (content?_of_isDirectoryAt stands)

section Created

variable (paves : (prepareParent (directoryOf request)).Paves (directoryOf request) s made)
  (established : Established (directoryOf request) s made place)

include paves established

end Created

end Collection

end DialectBench

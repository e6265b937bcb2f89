import DialectBench.Bench.Execute
import DialectBench.Proofs.Disk.Clearing
import DialectBench.Proofs.Suite.Modules

/-! The directories of results in a workspace: those that are looked for hold all that makes a module. -/

namespace DialectBench

namespace Disk

/-- A way is one to a directory below a directory. -/
theorem mem_directoryWays {d : Disk} {root : Path} {home : Location} {way : List String}
    (sound : d.Sound) (leads : d.Leads root home) :
    way ∈ d.directoryWays root ↔ way ≠ [] ∧ d.isDirectoryAt (home ++ way) = true := by
  rw [directoryWays, waysBelow, directory?_eq_some.mpr leads]
  simp only [mem_inOrder, List.mem_map, List.mem_filter, Prod.exists]
  constructor
  · rintro ⟨names, node, ⟨listed, stands⟩, rfl⟩
    obtain ⟨some, found⟩ := sound.mem_below.mp listed
    exact ⟨some, by simp [isDirectoryAt, found, stands]⟩
  · rintro ⟨some, stands⟩
    obtain ⟨modified, found⟩ := find?_of_isDirectoryAt stands
    exact ⟨way, _, ⟨sound.mem_below.mpr ⟨some, found⟩, rfl⟩, rfl⟩

/-- A path that leads to no directory has no place for one. -/
theorem directory?_of_not_leads {d : Disk} {root : Path} (nowhere : ∀ home, ¬ d.Leads root home) :
    d.directory? root = none :=
  Option.eq_none_iff_forall_ne_some.mpr fun home there => nowhere home (directory?_eq_some.mp there)

end Disk

namespace Suite

open Disk

section Outermost

variable {wanted : List String → Bool} {chosen ways : List (List String)} {way : List String}

/-- What was chosen before stays chosen. -/
theorem chosen_subset_outermost : chosen ⊆ outermost wanted chosen ways := by
  induction ways generalizing chosen with
  | nil => exact List.Subset.refl _
  | cons first ways ih =>
    rw [outermost]
    split
    · exact ih
    · split
      · exact List.Subset.trans (List.subset_append_left _ _) ih
      · exact ih

/-- What is chosen was chosen before, or is wanted. -/
theorem mem_outermost (member : way ∈ outermost wanted chosen ways) :
    way ∈ chosen ∨ (way ∈ ways ∧ wanted way = true) := by
  -- By induction on the ways, with what was chosen before them left open.
  induction ways generalizing chosen with
  | nil => exact Or.inl member
  | cons first ways ih =>
    have later {before : List (List String)} (member : way ∈ outermost wanted before ways) :
        way ∈ before ∨ (way ∈ first :: ways ∧ wanted way = true) :=
      (ih member).imp_right fun ⟨listed, asked⟩ => ⟨List.mem_cons_of_mem _ listed, asked⟩
    rw [outermost] at member
    split at member
    · exact later member
    · split at member
      next asked =>
        rcases later member with before | new
        · rcases List.mem_append.mp before with old | own
          · exact Or.inl old
          · obtain rfl := List.mem_singleton.mp own
            exact Or.inr ⟨List.mem_cons_self, asked⟩
        · exact Or.inr new
      · exact later member

/-- Every way that is wanted leads through one that is chosen. -/
theorem outermost_covers (member : way ∈ ways) (asked : wanted way = true) :
    ∃ outer ∈ outermost wanted chosen ways, outer <+: way := by
  induction ways generalizing chosen with
  | nil => cases member
  | cons first ways ih =>
    rw [outermost]
    rcases List.mem_cons.mp member with rfl | later
    · -- The way leads through one that was chosen before, or it is chosen itself.
      split
      next covered =>
        obtain ⟨outer, listed, within⟩ := List.any_eq_true.mp covered
        exact ⟨outer, chosen_subset_outermost listed, List.isPrefixOf_iff_prefix.mp within⟩
      next =>
        exact ⟨way, chosen_subset_outermost (by simp), List.prefix_refl _⟩
    · split
      · exact ih later
      · split <;> exact ih later

end Outermost

variable {d e : Disk} {root : Path} {home : Location} {way names : List String} {name : String}

/-- A way to a directory of results ends in the name of one, behind a build output. -/
theorem isTransientWay_append (known : name ∈ transientNames) (inside : outputName ∈ names) :
    isTransientWay (names ++ [name]) = true := by
  simp [isTransientWay, known, inside]

/-- A way to a directory of results leads through a build output. -/
theorem outputName_mem (transient : isTransientWay way = true) : outputName ∈ way := by
  unfold isTransientWay at transient
  split at transient
  · simp only [Bool.and_eq_true, List.contains_iff_mem] at transient
    exact (List.dropLast_sublist way).subset transient.2
  · cases transient

/-- Those that are looked for are directories of results. -/
theorem mem_transientWays (sound : d.Sound) (leads : d.Leads root home)
    (member : way ∈ transientWays d root) : way ≠ [] ∧ d.isDirectoryAt (home ++ way) = true := by
  rcases mem_outermost member with none | ⟨listed, -⟩
  · cases none
  · exact (mem_directoryWays sound leads).mp listed

/-- Every directory of results is one of those that are looked for, or lies in one. -/
theorem transientWays_cover (sound : d.Sound) (leads : d.Leads root home)
    (transient : isTransientWay way = true) (stands : d.isDirectoryAt (home ++ way) = true) :
    ∃ outer ∈ transientWays d root, outer <+: way := by
  refine outermost_covers ((mem_directoryWays sound leads).mpr ⟨?_, stands⟩) transient
  rintro rfl
  simp [isTransientWay] at transient

/-- There are no directories of results below a place. -/
def Swept (d : Disk) (home : Location) : Prop :=
  ∀ way, isTransientWay way = true → d.isDirectoryAt (home ++ way) = false

/-- Nothing is left of the test results and reports of a module when there are no directories of
results. -/
theorem Swept.view_eq_none {rest : List String} (swept : Swept d home) (sound : d.Sound)
    (known : name ∈ transientNames) (some : rest ≠ []) :
    d.view (home ++ (names ++ outputName :: name :: rest)) = none := by
  by_contra seen
  have split : home ++ (names ++ outputName :: name :: rest) =
      home ++ (names ++ [outputName] ++ [name]) ++ rest := by simp
  rw [split] at seen
  have none := swept (names ++ [outputName] ++ [name]) (isTransientWay_append known (by simp))
  rw [sound.isDirectoryAt_of_append some seen] at none
  cases none

/-- The way to an XML file below a directory of test results in a build output. -/
def IsResult (way : List String) : Prop :=
  ∃ front rest, rest ≠ [] ∧ way = front ++ outputName :: resultsName :: rest ∧
    isXmlWay way = true

/-- A file that belongs to a module is a result. -/
theorem isResult_of_owner (owned : owner? way = some names) : IsResult way := by
  obtain ⟨-, xml, rest, some, split⟩ := owner?_eq_some owned
  exact ⟨names, rest, some, split, xml⟩

/-- There are no results below a place. -/
def Resultless (d : Disk) (home : Location) : Prop :=
  ∀ way, IsResult way → d.content? (home ++ way) = none

/-- Without directories of results there are no results. -/
theorem Swept.resultless (swept : Swept d home) (sound : d.Sound) : Resultless d home := by
  rintro way ⟨front, rest, some, rfl, -⟩
  rw [content?_eq, swept.view_eq_none sound (by decide) some]
  rfl

/-- A workspace without results has no modules. -/
theorem Resultless.modules_eq_nil (resultless : Resultless d home) (sound : d.Sound)
    (leads : d.Leads root home) : modules d root = [] := by
  refine List.eq_nil_iff_forall_not_mem.mpr fun names member => ?_
  obtain ⟨way, listed, owned⟩ := mem_modules.mp member
  exact ((mem_fileWays_iff sound leads).mp listed).2 (resultless way (isResult_of_owner owned))

/-- A tree that loses entries gains no results. -/
theorem Resultless.thin {lost : Location → Prop} (resultless : Resultless d home)
    (thins : d.Thins lost e) : Resultless e home := fun way result => by
  rcases thins.content?_eq (home ++ way) with same | ⟨-, gone⟩
  · rw [same, resultless way result]
  · exact gone

/-- A path that leads to no directory has no modules. -/
theorem modules_of_not_leads (nowhere : ∀ home, ¬ d.Leads root home) : modules d root = [] := by
  simp [modules, fileWays, waysBelow, directory?_of_not_leads nowhere]

/-- A path that leads to no directory has no directories of results. -/
theorem transientWays_of_not_leads (nowhere : ∀ home, ¬ d.Leads root home) :
    transientWays d root = [] := by
  simp [transientWays, directoryWays, waysBelow, directory?_of_not_leads nowhere, outermost]

end Suite

end DialectBench

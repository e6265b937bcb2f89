import DialectBench.Proofs.Disk.Lead
import DialectBench.Proofs.Disk.Newest
import DialectBench.Proofs.Disk.Relisting

/-! Trees whose directories list the same entries, each in an order of its own. -/

namespace DialectBench

namespace Disk

variable {d e : Disk} {directory : Path} {place : Location}

/-- A tree with the same entries, each directory of which may list its own in another order. -/
structure Shuffled (d e : Disk) : Prop where
  /-- The entries fit together. -/
  sound : d.Sound
  /-- They do in the other tree. -/
  sound' : e.Sound
  /-- The current directory is the same. -/
  current : e.current = d.current
  /-- The present time is the same. -/
  clock : e.clock = d.clock
  /-- Each directory has the same entries. -/
  children : ∀ place, (e.children place).Perm (d.children place)

/-- The entries of a directory are those that are found in it. -/
theorem Sound.mem_children (sound : d.Sound) {name : String} {node : Node} :
    (name, node) ∈ d.children place ↔ d.find? (place ++ [name]) = some node := by
  unfold children
  rw [List.mem_filterMap]
  constructor
  · rintro ⟨⟨names, other⟩, listed, found⟩
    match names, found with
    | [one], found =>
      obtain ⟨rfl, rfl⟩ := Prod.mk.inj (Option.some.inj found)
      exact (sound.mem_below.mp listed).2
  · intro found
    exact ⟨([name], node), sound.mem_below.mpr ⟨by simp, found⟩, rfl⟩

/-- In a sound tree at most one entry is listed at a place, and it is the one that is found. -/
theorem Sound.listedAt_eq (sound : d.Sound) (some : place ≠ []) :
    listedAt d.entries place = (d.find? place).toList.map fun node => (place, node) := by
  -- By induction on the entries: behind the one at the place there is none at it any more.
  have single (entries : List (Location × Node)) (distinct : (entries.map Prod.fst).Nodup) :
      listedAt entries place = (entries.lookup place).toList.map fun node => (place, node) := by
    induction entries with
    | nil => rfl
    | cons entry entries ih =>
      obtain ⟨other, node⟩ := entry
      obtain ⟨absent, others⟩ := List.nodup_cons.mp distinct
      have rest := ih others
      rw [listedAt] at rest ⊢
      rw [List.filter_cons, List.lookup_cons, rest]
      by_cases own : other = place
      · subst own
        have none : entries.lookup other = Option.none := by
          rw [List.lookup_eq_none_iff]
          rintro ⟨listed, held⟩ member
          rw [bne_iff_ne]
          rintro rfl
          exact absent (List.mem_map.mpr ⟨_, member, rfl⟩)
        simp [none]
      · rw [beq_eq_false_iff_ne.mpr (Ne.symm own)]
        simp [own]
  rw [find?_of_ne_nil some]
  exact single d.entries sound.distinct

namespace Shuffled

/-- In a shuffled tree the same is found at each place. -/
theorem find?_eq (shuffled : d.Shuffled e) (place : Location) : e.find? place = d.find? place := by
  rcases List.eq_nil_or_concat place with rfl | ⟨outer, name, rfl⟩
  · rfl
  · rw [List.concat_eq_append]
    refine Option.ext fun node => ?_
    rw [← shuffled.sound'.mem_children, ← shuffled.sound.mem_children]
    exact (shuffled.children outer).mem_iff

/-- A shuffled tree is listed in another order. -/
theorem relisted (shuffled : d.Shuffled e) : d.Relisted e := by
  refine ⟨fun place => ?_, shuffled.current, shuffled.clock⟩
  by_cases root : place = []
  · have none (tree : Disk) (sound : tree.Sound) : listedAt tree.entries place = [] := by
      refine List.filter_eq_nil_iff.mpr fun entry member => ?_
      have inner := sound.inner entry.1 (List.mem_map_of_mem member)
      simpa [root] using inner
    rw [none e shuffled.sound', none d shuffled.sound]
  · rw [shuffled.sound'.listedAt_eq root, shuffled.sound.listedAt_eq root, shuffled.find?_eq]

end Shuffled

/-- Of the entries of a directory no two have the same components. -/
theorem Sound.eq_of_listing (sound : d.Sound) {one other : Path} (listed : one ∈ d.listing directory)
    (listed' : other ∈ d.listing directory) (same : one.components = other.components) : one = other := by
  unfold listing at listed listed'
  cases there : d.directory? directory with
  | none => simp [there] at listed
  | some place =>
    simp only [there, List.mem_map, Prod.exists] at listed listed'
    obtain ⟨name, node, member, rfl⟩ := listed
    obtain ⟨name', node', member', rfl⟩ := listed'
    -- Names of entries are plain, so a path tells them by its last component.
    have plain {name : String} {node : Node} (member : (name, node) ∈ d.children place) :
        IsPlain name := by
      have seen : d.view (place ++ [name]) ≠ none := by
        rw [ne_eq, view_eq_none, sound.mem_children.mp member]
        simp
      exact sound.isPlain seen (by simp)
    rw [Path.eq_of_components_div (directory?_eq_some.mp there).named (plain member) (plain member')
      same]

namespace Shuffled

/-- The entries of a directory are the same in the order of names. -/
theorem sortedListing_eq (shuffled : d.Shuffled e) : e.sortedListing = d.sortedListing := by
  funext directory
  unfold sortedListing
  refine inOrder_eq_of_perm (fun a b c => Std.TransCmp.isLE_trans) (fun a b => ?_)
    (fun one listed other listed' least greatest => ?_) (shuffled.relisted.listing_perm directory)
  · by_cases least : (a.order b).isLE = true
    · exact Or.inl least
    · exact Or.inr (by rw [Std.OrientedCmp.lt_of_not_isLE least]; rfl)
  · exact shuffled.sound'.eq_of_listing listed listed'
      (Path.components_eq_of_order (Std.OrientedCmp.isLE_antisymm least greatest))

/-- Of several paths the same one is the newest. -/
theorem newest?_eq (shuffled : d.Shuffled e) : e.newest? = d.newest? := by
  have same : e.newer = d.newer := by
    funext best path
    unfold newer isNoOlder
    rw [shuffled.relisted.modified_eq]
  funext paths
  rw [newest?, newest?, same]

/-- Of the entries of a directory that are wanted the same one is the newest. -/
theorem newest?_listing (shuffled : d.Shuffled e) (directory : Path) (wanted : Path → Bool) :
    e.newest? ((e.listing directory).filter wanted) =
      d.newest? ((d.listing directory).filter wanted) := by
  rw [shuffled.newest?_eq]
  refine newest?_perm (fun one listed other listed' => ?_)
    ((shuffled.relisted.listing_perm directory).filter wanted)
  exact shuffled.sound.eq_of_listing (List.mem_filter.mp listed).1 (List.mem_filter.mp listed').1

end Shuffled

end Disk

end DialectBench

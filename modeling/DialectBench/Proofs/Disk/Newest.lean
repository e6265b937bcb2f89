import DialectBench.Disk.Walk
import DialectBench.Proofs.Path.Order

/-! The newest of several paths: none of them is newer, and it is the same in whatever order they come. -/

namespace DialectBench.Disk

variable {d : Disk} {a b c : Path} {paths others : List Path}

/-- Paths are ordered by their times, and those as old by their components. -/
def orderByAge (d : Disk) (a b : Path) : Ordering :=
  compareLex (compareOn d.modified) Path.order a b

instance : Std.TransCmp d.orderByAge :=
  inferInstanceAs (Std.TransCmp (compareLex (compareOn d.modified) Path.order))

/-- A path is not older than another one if it is not ordered before it. -/
theorem isNoOlder_eq (a b : Path) : d.isNoOlder a b = (d.orderByAge b a).isLE := rfl

/-- A path is not older than one that is not newer than a third one which it is not older than. -/
theorem isNoOlder_trans (one : d.isNoOlder a b = true) (other : d.isNoOlder b c = true) :
    d.isNoOlder a c = true := by
  rw [isNoOlder_eq] at one other ⊢
  exact Std.TransCmp.isLE_trans other one

/-- A path is not older than itself. -/
theorem isNoOlder_self (a : Path) : d.isNoOlder a a = true := by
  have alike : d.orderByAge a a = .eq := Std.ReflCmp.compare_self
  rw [isNoOlder_eq, alike]
  rfl

/-- Paths of which neither is older than the other have the same components. -/
theorem components_eq_of_isNoOlder (one : d.isNoOlder a b = true) (other : d.isNoOlder b a = true) :
    a.components = b.components := by
  rw [isNoOlder_eq] at one other
  have alike : d.orderByAge a b = .eq := Std.OrientedCmp.isLE_antisymm other one
  exact Path.components_eq_of_order (Ordering.then_eq_eq.mp alike).2

/-- What is kept as the newest path is one of those seen, and none of them is newer. -/
theorem foldl_newer (best : Path) (paths : List Path) :
    ∃ last, paths.foldl d.newer (some best) = some last ∧ last ∈ best :: paths ∧
      ∀ path ∈ best :: paths, d.isNoOlder last path = true := by
  induction paths generalizing best with
  | nil => exact ⟨best, rfl, List.mem_cons_self, by simp [isNoOlder_self]⟩
  | cons path paths ih =>
    rw [List.foldl_cons, newer]
    split
    next newer =>
      obtain ⟨last, kept, member, greatest⟩ := ih path
      refine ⟨last, kept, List.mem_cons_of_mem _ member, ?_⟩
      have first := greatest path List.mem_cons_self
      exact List.forall_mem_cons.mpr ⟨isNoOlder_trans first newer, greatest⟩
    next older =>
      obtain ⟨last, kept, member, greatest⟩ := ih best
      obtain ⟨first, others⟩ := List.forall_mem_cons.mp greatest
      -- Of two paths one is not older than the other.
      have less : d.isNoOlder best path = true := by
        rw [isNoOlder_eq] at older ⊢
        rw [Std.OrientedCmp.lt_of_not_isLE older]
        rfl
      refine ⟨last, kept, ?_, List.forall_mem_cons.mpr ⟨first, List.forall_mem_cons.mpr
        ⟨isNoOlder_trans first less, others⟩⟩⟩
      rcases List.mem_cons.mp member with rfl | later
      · exact List.mem_cons_self
      · exact List.mem_cons_of_mem _ (List.mem_cons_of_mem _ later)

/-- The newest path is one of them, and none of them is newer. -/
theorem exists_newest (some : paths ≠ []) :
    ∃ last, d.newest? paths = .some last ∧ last ∈ paths ∧
      ∀ path ∈ paths, d.isNoOlder last path = true := by
  cases paths with
  | nil => exact absurd rfl some
  | cons path paths => exact foldl_newer path paths

/-- The newest path is the same in whatever order the paths come, if no two of them have the same
components. -/
theorem newest?_perm
    (apart : ∀ one ∈ paths, ∀ other ∈ paths, one.components = other.components → one = other)
    (perm : others.Perm paths) : d.newest? others = d.newest? paths := by
  by_cases none : paths = []
  · rw [none] at perm
    rw [none, perm.eq_nil]
  · have some : others ≠ [] := fun empty => none (List.nil_perm.mp (empty ▸ perm))
    obtain ⟨last, found, member, greatest⟩ := exists_newest (d := d) none
    obtain ⟨last', found', member', greatest'⟩ := exists_newest (d := d) some
    have one := greatest last' (perm.mem_iff.mp member')
    have other := greatest' last (perm.mem_iff.mpr member)
    rw [found, found', apart last' (perm.mem_iff.mp member') last member
      (components_eq_of_isNoOlder other one)]

end DialectBench.Disk

import DialectBench.Order
import Mathlib.Data.List.Basic

/-! Lists that are put in order: what comes out depends on the elements alone, and among those of one key
on their order. -/

namespace DialectBench

variable {α κ : Type} {le : α → α → Bool} {list other : List α}

/-- The same elements are put in the same order, if no two of them are as great. -/
theorem inOrder_eq_of_perm (trans : ∀ a b c, le a b → le b c → le a c)
    (total : ∀ a b, le a b ∨ le b a) (apart : ∀ a ∈ list, ∀ b ∈ list, le a b → le b a → a = b)
    (perm : list.Perm other) : inOrder le list = inOrder le other := by
  refine List.Perm.eq_of_pairwise (fun a b here there => ?_) (pairwise_inOrder trans total list)
    (pairwise_inOrder trans total other)
    (((perm_inOrder list).trans perm).trans (perm_inOrder other).symm)
  exact apart a (mem_inOrder.mp here) b (perm.mem_iff.mpr (mem_inOrder.mp there))

section Stable

variable [DecidableEq κ] {key : α → κ}

/-- An element that is inserted stands in front of the others of its key. -/
theorem filter_insertInto (alike : ∀ a b, key a = key b → le a b) (a : α) (list : List α) (k : κ) :
    (insertInto le a list).filter (key · = k) = (a :: list).filter (key · = k) := by
  induction list with
  | nil => rfl
  | cons b rest ih =>
    rw [insertInto]
    split
    next => rfl
    next great =>
      -- The element goes behind one of another key, so their order makes no difference.
      have differs : key a ≠ key b := fun same => great (alike a b same)
      rw [List.filter_cons, ih, List.filter_cons, List.filter_cons, List.filter_cons]
      by_cases own : key a = k
      · have away : key b ≠ k := fun same => differs (own.trans same.symm)
        simp [own, away]
      · simp [own]

/-- Elements of one key stay in their order. -/
theorem filter_inOrder (alike : ∀ a b, key a = key b → le a b) (list : List α) (k : κ) :
    (inOrder le list).filter (key · = k) = list.filter (key · = k) := by
  induction list with
  | nil => rfl
  | cons a rest ih => rw [inOrder, filter_insertInto alike, List.filter_cons, List.filter_cons, ih]

/-- Lists in order are the same if the elements of each key are. -/
theorem eq_of_pairwise_of_filter (alike : ∀ a b, key a = key b → le a b)
    (apart : ∀ a b, le a b → le b a → key a = key b)
    (ordered : list.Pairwise fun a b => le a b) (ordered' : other.Pairwise fun a b => le a b)
    (same : ∀ k, list.filter (key · = k) = other.filter (key · = k)) : list = other := by
  induction list generalizing other with
  | nil =>
    cases other with
    | nil => rfl
    | cons b rest => simpa using same (key b)
  | cons a list ih =>
    cases other with
    | nil => simpa using same (key a)
    | cons b other =>
      -- Each of the two first elements is one of the other list, so neither is greater.
      have own : a ∈ (b :: other).filter (key · = key a) := by rw [← same]; simp
      have own' : b ∈ (a :: list).filter (key · = key b) := by rw [same]; simp
      have first : le b a := by
        rcases List.mem_cons.mp (List.mem_filter.mp own).1 with rfl | later
        · exact alike _ _ rfl
        · exact (List.pairwise_cons.mp ordered').1 a later
      have first' : le a b := by
        rcases List.mem_cons.mp (List.mem_filter.mp own').1 with rfl | later
        · exact alike _ _ rfl
        · exact (List.pairwise_cons.mp ordered).1 b later
      have equal := apart a b first' first
      have heads := same (key a)
      rw [List.filter_cons_of_pos (by simp), List.filter_cons_of_pos (by simp [equal])] at heads
      obtain ⟨rfl, -⟩ := List.cons.inj heads
      rw [ih (List.pairwise_cons.mp ordered).2 (List.pairwise_cons.mp ordered').2 fun k => ?_]
      have both := same k
      by_cases own : key a = k
      · rw [List.filter_cons_of_pos (by simpa using own), List.filter_cons_of_pos (by simpa using own)]
          at both
        exact (List.cons.inj both).2
      · rwa [List.filter_cons_of_neg (by simpa using own), List.filter_cons_of_neg (by simpa using own)]
          at both

/-- Lists with the same elements of each key are put in the same order. -/
theorem inOrder_eq_of_filter (key : α → κ) (trans : ∀ a b c, le a b → le b c → le a c)
    (total : ∀ a b, le a b ∨ le b a) (alike : ∀ a b, key a = key b → le a b)
    (apart : ∀ a b, le a b → le b a → key a = key b)
    (same : ∀ k, list.filter (key · = k) = other.filter (key · = k)) :
    inOrder le list = inOrder le other :=
  eq_of_pairwise_of_filter alike apart (pairwise_inOrder trans total list)
    (pairwise_inOrder trans total other) fun k => by
      rw [filter_inOrder alike, filter_inOrder alike, same]

end Stable

end DialectBench

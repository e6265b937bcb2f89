/-! Lists put in order by insertion; of two elements as great the earlier one stays in front. -/

namespace DialectBench

variable {α : Type} {le : α → α → Bool}

/-- A list with an element more, in front of the first one that it may stand before. -/
def insertInto (le : α → α → Bool) (a : α) : List α → List α
  | [] => [a]
  | b :: rest => if le a b then a :: b :: rest else b :: insertInto le a rest

/-- The elements of a list in order. -/
def inOrder (le : α → α → Bool) : List α → List α
  | [] => []
  | a :: rest => insertInto le a (inOrder le rest)

@[simp]
theorem inOrder_nil : inOrder le [] = [] :=
  rfl

/-- Nothing is lost when an element is inserted. -/
theorem perm_insertInto (a : α) (list : List α) : (insertInto le a list).Perm (a :: list) := by
  induction list with
  | nil => exact .refl _
  | cons b rest ih =>
    rw [insertInto]
    split
    · exact .refl _
    · exact (ih.cons b).trans (.swap a b rest)

/-- Nothing is lost when a list is put in order. -/
theorem perm_inOrder (list : List α) : (inOrder le list).Perm list := by
  induction list with
  | nil => exact .refl _
  | cons a rest ih => exact (perm_insertInto a _).trans (ih.cons a)

/-- A list in order has the elements that it had before. -/
theorem mem_inOrder {a : α} {list : List α} : a ∈ inOrder le list ↔ a ∈ list :=
  (perm_inOrder list).mem_iff

/-- An element that is inserted into a list in order stands behind no greater one. -/
theorem pairwise_insertInto (trans : ∀ a b c, le a b → le b c → le a c)
    (total : ∀ a b, le a b ∨ le b a) {a : α} {list : List α}
    (ordered : list.Pairwise fun a b => le a b) :
    (insertInto le a list).Pairwise fun a b => le a b := by
  induction list with
  | nil => exact List.pairwise_singleton _ a
  | cons b rest ih =>
    obtain ⟨first, others⟩ := List.pairwise_cons.mp ordered
    rw [insertInto]
    split
    next small =>
      refine List.pairwise_cons.mpr ⟨fun c inside => ?_, ordered⟩
      rcases List.mem_cons.mp inside with rfl | later
      · exact small
      · exact trans a b c small (first c later)
    next great =>
      refine List.pairwise_cons.mpr ⟨fun c inside => ?_, ih others⟩
      rcases List.mem_cons.mp ((perm_insertInto a rest).mem_iff.mp inside) with rfl | later
      · exact (total c b).resolve_left great
      · exact first c later

/-- A list in order has no element in front of a smaller one. -/
theorem pairwise_inOrder (trans : ∀ a b c, le a b → le b c → le a c)
    (total : ∀ a b, le a b ∨ le b a) (list : List α) :
    (inOrder le list).Pairwise fun a b => le a b := by
  induction list with
  | nil => exact .nil
  | cons a rest ih => exact pairwise_insertInto trans total ih

end DialectBench

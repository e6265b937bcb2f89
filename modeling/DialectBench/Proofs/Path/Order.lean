import DialectBench.Proofs.Path.Ancestors

/-! The order of paths: paths that are ordered alike have the same components, and of the entries of one
directory no two do. -/

namespace DialectBench

instance : Std.TransCmp Component.order :=
  inferInstanceAs (Std.TransCmp (compareLex (compareOn Component.rank) (compareOn Component.text)))

instance : Std.LawfulEqCmp Component.order where
  compare_self {a} := (Std.ReflCmp.compare_self : Component.order a a = .eq)
  eq_of_compare {a b} same := by
    obtain ⟨rank, text⟩ := Ordering.then_eq_eq.mp same
    have kind : a.rank = b.rank := Std.LawfulEqCmp.eq_of_compare rank
    have name : a.text = b.text := Std.LawfulEqCmp.eq_of_compare text
    cases a <;> cases b <;> simp [Component.rank] at kind ⊢
    exact name

/-- Components are ordered as lists of steps are. -/
theorem orderComponents_eq (a b : List Component) :
    orderComponents a b = List.compareLex Component.order a b := by
  induction a generalizing b with
  | nil => cases b <;> rfl
  | cons first a ih =>
    cases b with
    | nil => rfl
    | cons other b =>
      rw [orderComponents, ih]
      exact List.compareLex_cons_cons.symm

namespace Path

variable {a b c directory : Path}

/-- Paths are ordered as their components are. -/
theorem order_eq (a b : Path) :
    a.order b = List.compareLex Component.order a.components b.components :=
  orderComponents_eq _ _

instance : Std.TransCmp Path.order where
  eq_swap {a b} := by
    rw [order_eq, order_eq]
    exact Std.OrientedCmp.eq_swap
  isLE_trans {a b c} := by
    simp only [order_eq]
    exact Std.TransCmp.isLE_trans

/-- Paths that are ordered alike have the same components. -/
theorem components_eq_of_order (same : a.order b = .eq) : a.components = b.components := by
  rw [order_eq] at same
  exact Std.LawfulEqCmp.eq_of_compare same

/-- Entries of one directory with the same components have one name. -/
theorem eq_of_components_div {one other : String} (named : directory.IsNamed) (plain : IsPlain one)
    (plain' : IsPlain other) (same : (directory / one).components = (directory / other).components) :
    one = other := by
  have names : (directory / one).fileName? = (directory / other).fileName? := by
    rw [fileName?_eq, fileName?_eq, same]
  rw [fileName?_div named plain, fileName?_div named plain'] at names
  exact Option.some.inj names

end Path

end DialectBench

import DialectBench.Proofs.Summary.Buckets
import Mathlib.Algebra.Ring.Nat

/-!
Sums over suites with their modules: the counts of each module are the sums over its suites, and those of
all modules together are the counts over all suites.
-/

namespace DialectBench

open Disk

namespace Totals

/-- The counts among the totals. -/
inductive Count where
  /-- The number of result files. -/
  | files
  /-- The number of tests. -/
  | tests
  /-- The number of failed tests. -/
  | failures
  /-- The number of tests that ended in an error. -/
  | errors
  /-- The number of skipped tests. -/
  | skipped
  deriving DecidableEq, Repr

/-- One of the counts. -/
def count (totals : Totals) : Count → Nat
  | .files => totals.files
  | .tests => totals.tests
  | .failures => totals.failures
  | .errors => totals.errors
  | .skipped => totals.skipped

/-- The sum of several totals, added up in their order. -/
def total (list : List Totals) : Totals :=
  list.foldl plus {}

variable {which : Count}

/-- Nothing counts zero. -/
@[simp] theorem count_empty (which : Count) : ({} : Totals).count which = 0 := by
  cases which <;> rfl

/-- Counts add up. -/
@[simp] theorem count_plus (one other : Totals) :
    (one.plus other).count which = one.count which + other.count which := by
  cases which <;> rfl

/-- One total more is added to the sum of those before it. -/
theorem total_concat (list : List Totals) (last : Totals) :
    total (list ++ [last]) = (total list).plus last := by
  rw [total, List.foldl_append]
  rfl

/-- A count of a sum is the sum of that count. -/
theorem count_total (list : List Totals) :
    (total list).count which = (list.map fun totals => totals.count which).sum := by
  induction list using List.reverseRecOn with
  | nil => simp [total]
  | append_singleton list last ih => simp [total_concat, ih]

end Totals

namespace Summary

open Totals

variable {name key : String} {totals sum : Totals} {sums : TotalsByModule} {which : Count}
  {list front back : List (String × Totals)}

section Sums

/-- The names of the modules ascend. -/
def Ascends (sums : TotalsByModule) : Prop :=
  sums.Pairwise fun one other => one.1 < other.1

/-- With one suite more the names of the modules ascend. -/
theorem Ascends.tally (ascends : Ascends sums) : Ascends (tally name totals sums) := by
  -- By induction on the sums: the name is the first one, comes before it or belongs behind it.
  induction sums with
  | nil => exact List.pairwise_singleton _ _
  | cons sum rest ih =>
    obtain ⟨other, sum⟩ := sum
    obtain ⟨least, inner⟩ := List.pairwise_cons.mp ascends
    unfold Summary.tally
    split
    next => exact List.pairwise_cons.mpr ⟨least, inner⟩
    next apart =>
      split
      next less =>
        refine List.pairwise_cons.mpr ⟨fun later member => ?_, ascends⟩
        rcases List.mem_cons.mp member with rfl | later
        · exact less
        · exact String.lt_trans less (least _ later)
      next notLess =>
        -- A name that is neither the first nor before it is behind it.
        have greater : other < name := by
          by_contra notGreater
          exact apart (String.le_antisymm (String.not_lt.mp notGreater) (String.not_lt.mp notLess))
        refine List.pairwise_cons.mpr ⟨fun later member => ?_, ih inner⟩
        rcases mem_tally.mp (List.mem_map_of_mem (f := Prod.fst) member) with own | before
        · rw [own]
          exact greater
        · obtain ⟨entry, listed, same⟩ := List.mem_map.mp before
          rw [← same]
          exact least entry listed

/-- A name before all others has no sum yet. -/
theorem Ascends.lookup_eq_none {other : String} (ascends : Ascends ((other, sum) :: sums))
    (less : name < other) : ((other, sum) :: sums).lookup name = none := by
  rw [List.lookup_eq_none_iff]
  intro entry member
  rw [bne_iff_ne]
  rintro rfl
  rcases List.mem_cons.mp member with rfl | later
  · exact String.lt_irrefl _ less
  · exact String.lt_irrefl _ (String.lt_trans less ((List.pairwise_cons.mp ascends).1 _ later))

/-- One suite more is added to the sum of its module alone. -/
theorem Ascends.lookup_tally (ascends : Ascends sums) (key : String) :
    (Summary.tally name totals sums).lookup key =
      if key = name then some (((sums.lookup name).getD {}).plus totals) else sums.lookup key := by
  induction sums with
  | nil =>
    by_cases own : key = name
    · simp [Summary.tally, own]
    · simp [Summary.tally, List.lookup_cons, beq_eq_false_iff_ne.mpr own, own]
  | cons sum rest ih =>
    obtain ⟨other, sum⟩ := sum
    unfold Summary.tally
    -- The suite is added to the first sum, put in front of it, or added further on.
    split
    next same =>
      subst same
      by_cases own : key = name
      · simp [own]
      · simp [List.lookup_cons, beq_eq_false_iff_ne.mpr own, own]
    next apart =>
      split
      next less =>
        -- In front of a larger name there is no sum of this module yet.
        rw [ascends.lookup_eq_none less]
        by_cases own : key = name
        · simp [own]
        · rw [List.lookup_cons, beq_eq_false_iff_ne.mpr own, if_neg own]
      next =>
        rw [List.lookup_cons, List.lookup_cons, List.lookup_cons, ih (List.pairwise_cons.mp ascends).2,
          beq_eq_false_iff_ne.mpr apart]
        by_cases here : key = other
        · subst here
          simp [Ne.symm apart]
        · rw [beq_eq_false_iff_ne.mpr here]

/-- No module has two sums if their names ascend. -/
theorem Ascends.distinct (ascends : Ascends sums) : (sums.map Prod.fst).Nodup :=
  List.pairwise_map.mpr (ascends.imp fun {one other} less same => by
    rw [same] at less
    exact String.lt_irrefl _ less)

/-- The sums of all modules together grow by what is added to one of them. -/
theorem sum_tally (name : String) (totals : Totals) (sums : TotalsByModule) (which : Count) :
    ((tally name totals sums).map fun entry => entry.2.count which).sum =
      (sums.map fun entry => entry.2.count which).sum + totals.count which := by
  -- Each sum is added to at most once, so the three cases differ in where the suite ends up.
  induction sums with
  | nil => simp [tally]
  | cons sum rest ih =>
    obtain ⟨other, sum⟩ := sum
    unfold tally
    split
    next =>
      simp only [List.map_cons, List.sum_cons, count_plus]
      omega
    next =>
      split
      next =>
        simp only [List.map_cons, List.sum_cons, count_plus, count_empty]
        omega
      next =>
        simp only [List.map_cons, List.sum_cons, ih]
        omega

/-- The sums over some suites with their modules. -/
def sumsOf (list : List (String × Totals)) : Aggregate :=
  list.foldl (fun sums suite => sums.add suite.1 suite.2) {}

/-- The suites of a module. -/
def ownOf (key : String) (list : List (String × Totals)) : List Totals :=
  (list.filter fun suite => suite.1 = key).map Prod.snd

/-- One suite more is added to the sums of those before it. -/
theorem sumsOf_concat (list : List (String × Totals)) (name : String) (totals : Totals) :
    sumsOf (list ++ [(name, totals)]) = (sumsOf list).add name totals := by
  rw [sumsOf, List.foldl_append]
  rfl

/-- The sum over all suites is their sum. -/
theorem overall_sumsOf (list : List (String × Totals)) :
    (sumsOf list).overall = total (list.map Prod.snd) := by
  induction list using List.reverseRecOn with
  | nil => rfl
  | append_singleton list last ih =>
    rw [sumsOf_concat, Aggregate.add, ih, List.map_append, List.map_singleton, total_concat]

/-- The modules of the sums ascend. -/
theorem ascends_sumsOf (list : List (String × Totals)) : Ascends (sumsOf list).modules := by
  induction list using List.reverseRecOn with
  | nil => exact .nil
  | append_singleton list last ih =>
    rw [sumsOf_concat]
    exact ih.tally

/-- A module that has suites has their sum, and no other one has a sum. -/
theorem lookup_sumsOf (list : List (String × Totals)) (key : String) :
    (sumsOf list).modules.lookup key =
      if ownOf key list = [] then none else some (total (ownOf key list)) := by
  -- By induction from the end, as the sums are made one suite after another.
  induction list using List.reverseRecOn with
  | nil => rfl
  | append_singleton list last ih =>
    obtain ⟨name, totals⟩ := last
    rw [sumsOf_concat, Aggregate.add, (ascends_sumsOf list).lookup_tally, ih]
    by_cases own : key = name
    · subst own
      have more : ownOf key (list ++ [(key, totals)]) = ownOf key list ++ [totals] := by simp [ownOf]
      rw [if_pos rfl, more, if_neg (by simp), total_concat]
      by_cases none : ownOf key list = []
      · simp [ih, none, total]
      · simp [ih, none]
    · have same : ownOf key (list ++ [(name, totals)]) = ownOf key list := by
        simp [ownOf, Ne.symm own]
      rw [if_neg own, same]

/-- The sum of a module is that of its suites, of which there is one at least. -/
theorem mem_modules_sumsOf :
    (key, sum) ∈ (sumsOf list).modules ↔ ownOf key list ≠ [] ∧ sum = total (ownOf key list) := by
  have found : (key, sum) ∈ (sumsOf list).modules ↔ (sumsOf list).modules.lookup key = some sum :=
    ⟨lookup_of_mem (ascends_sumsOf list).distinct, mem_of_lookup⟩
  rw [found, lookup_sumsOf]
  by_cases none : ownOf key list = []
  · simp [none]
  · simp [none, eq_comm]

/-- A module has the sum of its suites, which is nothing if it has none. -/
theorem getD_lookup_sumsOf (list : List (String × Totals)) (key : String) :
    ((sumsOf list).modules.lookup key).getD {} = total (ownOf key list) := by
  rw [lookup_sumsOf]
  by_cases none : ownOf key list = []
  · simp [none, total]
  · simp [none]

/-- The sums of the modules together are the sum over all suites. -/
theorem sum_modules_sumsOf (list : List (String × Totals)) (which : Count) :
    ((sumsOf list).modules.map fun entry => entry.2.count which).sum =
      (sumsOf list).overall.count which := by
  induction list using List.reverseRecOn with
  | nil => exact (count_empty which).symm
  | append_singleton list last ih =>
    rw [sumsOf_concat, Aggregate.add, sum_tally, ih, count_plus]

end Sums

/-- A suite more among others is added to the sum over all and to that of its module, and every other
module keeps its sum. -/
theorem sumsOf_insert (front back : List (String × Totals)) (name : String) (totals : Totals) :
    (∀ which, (sumsOf (front ++ (name, totals) :: back)).overall.count which =
      (sumsOf (front ++ back)).overall.count which + totals.count which) ∧
    (∀ other, other ≠ name → (sumsOf (front ++ (name, totals) :: back)).modules.lookup other =
      (sumsOf (front ++ back)).modules.lookup other) ∧
    ∃ sum, (sumsOf (front ++ (name, totals) :: back)).modules.lookup name = some sum ∧
      ∀ which, sum.count which =
        (((sumsOf (front ++ back)).modules.lookup name).getD {}).count which +
          totals.count which := by
  refine ⟨fun which => ?_, fun other apart => ?_, ?_⟩
  · -- Over all modules the totals are summed up, wherever the suite stands.
    simp only [overall_sumsOf, count_total, List.map_append, List.map_cons, List.sum_append,
      List.sum_cons]
    omega
  · -- Another module has the same suites as before.
    have same : ownOf other (front ++ (name, totals) :: back) = ownOf other (front ++ back) := by
      simp [ownOf, Ne.symm apart]
    rw [lookup_sumsOf, lookup_sumsOf, same]
  · have own : ownOf name (front ++ (name, totals) :: back) =
        ownOf name front ++ totals :: ownOf name back := by simp [ownOf]
    refine ⟨total (ownOf name (front ++ (name, totals) :: back)), ?_, fun which => ?_⟩
    · rw [lookup_sumsOf, if_neg (by simp [own])]
    · rw [getD_lookup_sumsOf, own, count_total, count_total]
      simp only [ownOf, List.filter_append, List.map_append, List.map_cons, List.sum_append,
        List.sum_cons]
      omega

end Summary

end DialectBench

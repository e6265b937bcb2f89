import DialectBench.Bench.Comparison
import DialectBench.Proofs.Session.Outcome
import Mathlib.Algebra.Ring.Int.Defs
import Mathlib.Algebra.Ring.Nat
import Mathlib.Data.List.Basic

/-! Comparing the newest summaries by way of a table of them comes to the same as comparing each pair on its
own, and the differences of the counts add up along the pairs. -/

namespace DialectBench

namespace CountPair

/-- Counts that fit into 63 bits are compared as they are. -/
theorem of_eq {left right : Nat} (one : left < Number.capacity 63)
    (other : right < Number.capacity 63) : of left right = ⟨left, right, (right : Int) - left⟩ := by
  rw [of, Number.asSigned, Number.asSigned, if_pos one, if_pos other]

end CountPair

namespace Comparison

/-- The three counts that are compared. -/
def counts (comparison : Comparison) : List CountPair :=
  [comparison.tests, comparison.failures, comparison.skipped]

/-- The comparison of a pair by itself: that of the sums in the newest summaries of both sides, if there are
such summaries and both can be read. -/
def alone (d : Disk) (runs : Path) (pair : Pairing) : Option Comparison :=
  match newestSummary d runs pair.left, newestSummary d runs pair.right with
  | some left, some right =>
    match storedTotals d left, storedTotals d right with
    | .ok one, .ok other => some (of pair.leftLabel pair.rightLabel one other)
    | _, _ => none
  | _, _ => none

variable {d : Disk} {runs left right : Path} {pair : Pairing} {identifier : String}
  {one other : Totals} {comparison : Comparison}

/-- A pair is compared by itself when both summaries are there and can be read. -/
theorem alone_eq_some : alone d runs pair = some comparison ↔
    ∃ left right one other, newestSummary d runs pair.left = some left ∧
      newestSummary d runs pair.right = some right ∧ storedTotals d left = .ok one ∧
      storedTotals d right = .ok other ∧
      comparison = of pair.leftLabel pair.rightLabel one other := by
  unfold alone
  constructor
  · intro compared
    split at compared
    next left right first second =>
      split at compared
      next one other reads reads' =>
        exact ⟨left, right, one, other, first, second, reads, reads', (Option.some.inj compared).symm⟩
      · cases compared
    · cases compared
  · rintro ⟨left, right, one, other, first, second, reads, reads', rfl⟩
    simp only [first, second, reads, reads']

/-- A value under a key is found among the values of several keys if the key is one of them. -/
theorem lookup_filterMap (value? : String → Option Path) (keys : List String) :
    (keys.filterMap fun key => (value? key).map fun value => (key, value)).lookup identifier =
      if identifier ∈ keys then value? identifier else none := by
  induction keys with
  | nil => rfl
  | cons key keys ih =>
    -- A key without a value leaves no entry behind.
    rw [List.filterMap_cons]
    by_cases same : identifier = key
    · subst same
      cases found : value? identifier with
      | some value => simp
      | none => simp [ih, found]
    · cases value? key with
      | none => simp [ih, same]
      | some value =>
        rw [Option.map_some, List.lookup_cons, beq_eq_false_iff_ne.mpr same, ih]
        simp [same]

/-- The sides of a pair are two of the targets that are looked up. -/
theorem sides_of_mem (listed : pair ∈ pairs) :
    pair.left ∈ identifiers ∧ pair.right ∈ identifiers ∧ pair.left ≠ pair.right := by
  revert pair
  decide

/-- In the table a target is found with its newest summary. -/
theorem lookup_available (known : identifier ∈ identifiers) :
    (available d runs).lookup identifier = newestSummary d runs identifier :=
  (lookup_filterMap _ _).trans (if_pos known)

/-- With fewer than two summaries no pair has one on both sides. -/
theorem alone_of_few (few : (available d runs).length < 2) (listed : pair ∈ pairs) :
    alone d runs pair = none := by
  obtain ⟨known, known', apart⟩ := sides_of_mem listed
  refine Option.eq_none_iff_forall_not_mem.mpr fun comparison compared => ?_
  obtain ⟨left, right, -, -, first, second, -⟩ := alone_eq_some.mp compared
  -- Both sides are in the table, under different names.
  have mine : (pair.left, left) ∈ available d runs :=
    List.mem_filterMap.mpr ⟨pair.left, known, by rw [first]; rfl⟩
  have yours : (pair.right, right) ∈ available d runs :=
    List.mem_filterMap.mpr ⟨pair.right, known', by rw [second]; rfl⟩
  obtain ⟨entry, single⟩ : ∃ entry, available d runs = [entry] :=
    List.length_eq_one_iff.mp (by have := List.length_pos_of_mem mine; omega)
  rw [single, List.mem_singleton] at mine yours
  exact apart (Prod.mk.inj (mine.trans yours.symm)).1

/-- A pair is compared by way of the table as it is by itself. -/
theorem ofPair_eq (listed : pair ∈ pairs) :
    (ofPair d (available d runs) pair).bind Except.toOption = alone d runs pair := by
  obtain ⟨known, known', -⟩ := sides_of_mem listed
  unfold ofPair alone
  rw [lookup_available known, lookup_available known']
  -- Both ways ask for the same summaries, and stop at the first that is missing or cannot be read.
  cases newestSummary d runs pair.left with
  | none => rfl
  | some left =>
    cases newestSummary d runs pair.right with
    | none => rfl
    | some right =>
      dsimp only
      cases storedTotals d left with
      | error failure => rfl
      | ok one => cases storedTotals d right <;> rfl

/-- The comparisons are those of the pairs by themselves, in their order. -/
theorem latest_eq (d : Disk) (runs : Path) : latest d runs = pairs.filterMap (alone d runs) := by
  unfold latest comparisonsOf outcomes
  dsimp only
  split
  next few =>
    rw [List.filterMap_eq_nil_iff.mpr fun pair listed => alone_of_few few listed]
    rfl
  · rw [List.filterMap_filterMap]
    exact List.filterMap_congr fun pair listed => ofPair_eq listed

/-- Newest summaries that can be read are compared. -/
theorem mem_latest (listed : pair ∈ pairs) (first : newestSummary d runs pair.left = some left)
    (second : newestSummary d runs pair.right = some right)
    (reads : storedTotals d left = .ok one) (reads' : storedTotals d right = .ok other) :
    of pair.leftLabel pair.rightLabel one other ∈ latest d runs := by
  rw [latest_eq]
  exact List.mem_filterMap.mpr ⟨pair, listed,
    alone_eq_some.mpr ⟨left, right, one, other, first, second, reads, reads', rfl⟩⟩

/-- Comparing the newest summaries does not fail. -/
theorem outcome_compareNewest (runs : Path) (s : Session) :
    (compareNewest runs).outcome s = .ok (latest s.scene.disk runs) :=
  (Action.outcome_bind_of_ok (Action.outcome_look _ s) _).trans
    (Action.outcome_bind_of_ok (Action.outcome_forM Action.outcome_tell _ _) _)

end Comparison

/-- A directory with summaries of three targets. -/
def Disk.summarized : Disk where
  entries := [(["r"], .directory 0), (["r", "mysql-summary-1.json"], summary "1" "9"),
    (["r", "tidb-tidbdialect-summary-1.json"], summary "4" "2"),
    (["r", "tidb-mysqldialect-summary-1.json"], summary "2" "5")]
  current := []
  clock := 0
where
  /-- A summary with counts of tests and failures. -/
  summary (tests failures : String) : Node :=
    .file (Text.encode ("\x7b\"overall\":\x7b\"tests\":" ++ tests ++ ",\"failures\":" ++ failures ++
      "\x7d\x7d")) false 0

end DialectBench

import DialectBench.Text.Line
import Mathlib.Data.List.Basic

/-! Where a sequence is cut at a mark, and the lines of texts that are put end to end. -/

namespace DialectBench.Text

section Cut

variable {α : Type} [DecidableEq α] {mark : α} {front xs : List α}

/-- Behind a mark a sequence is cut as if it began there. -/
theorem cutAfter_append (xs ys : List α) :
    cutAfter mark (xs ++ mark :: ys) = cutAfter mark (xs ++ [mark]) ++ cutAfter mark ys := by
  induction xs with
  | nil => simp [cutAfter]
  | cons x rest ih =>
    by_cases here : x = mark
    · simp [cutAfter, here, ih]
    · -- The first piece of what follows is there on both sides, since that is not empty.
      have some : cutAfter mark (rest ++ [mark]) ≠ [] := fun none => by
        simpa [none] using flatten_cutAfter mark (rest ++ [mark])
      obtain ⟨piece, pieces, cut⟩ := List.exists_cons_of_ne_nil some
      simp [cutAfter, here, ih, cut]

/-- Without a mark in it a sequence is one piece. -/
theorem cutAfter_of_notMem {xs : List α} (unmarked : mark ∉ xs) (some : xs ≠ []) :
    cutAfter mark xs = [xs] := by
  induction xs with
  | nil => exact absurd rfl some
  | cons x rest ih =>
    obtain ⟨other, unmarked⟩ := not_or.mp (mt List.mem_cons.mpr unmarked)
    rw [cutAfter, if_neg (Ne.symm other)]
    cases rest with
    | nil => rfl
    | cons next rest => rw [ih unmarked (by simp)]

/-- With its only mark at the end a sequence is one piece. -/
theorem cutAfter_of_notMem_append {front : List α} (unmarked : mark ∉ front) :
    cutAfter mark (front ++ [mark]) = [front ++ [mark]] := by
  induction front with
  | nil => simp [cutAfter]
  | cons x rest ih =>
    obtain ⟨other, unmarked⟩ := not_or.mp (mt List.mem_cons.mpr unmarked)
    rw [List.cons_append, cutAfter, if_neg (Ne.symm other), ih unmarked]

/-- What is cut off at the first mark holds no mark. -/
theorem notMem_of_cutOnce {xs front back : List α} (cut : cutOnce mark xs = some (front, back)) :
    mark ∉ front := by
  induction xs generalizing front back with
  | nil => simp [cutOnce] at cut
  | cons x rest ih =>
    by_cases here : x = mark
    · simp_all [cutOnce]
    · simp only [cutOnce, if_neg here, Option.map_eq_some_iff, Prod.mk.injEq] at cut
      obtain ⟨⟨first, others⟩, cut, rfl, rfl⟩ := cut
      simpa [Ne.symm here] using ih cut

/-- What cannot be cut holds no mark. -/
theorem notMem_of_cutOnce_eq_none {xs : List α} (whole : cutOnce mark xs = none) : mark ∉ xs := by
  induction xs with
  | nil => simp
  | cons x rest ih =>
    by_cases here : x = mark
    · simp [cutOnce, here] at whole
    · simp only [cutOnce, if_neg here, Option.map_eq_none_iff] at whole
      simpa [Ne.symm here] using ih whole

/-- Without the mark there is nothing to cut at. -/
theorem cutOnce_eq_none (absent : mark ∉ xs) : cutOnce mark xs = none := by
  induction xs with
  | nil => rfl
  | cons x rest ih =>
    obtain ⟨other, below⟩ := not_or.mp (mt List.mem_cons.mpr absent)
    simp [cutOnce, Ne.symm other, ih below]

/-- A list is cut at the mark behind a front that is free of it. -/
theorem cutOnce_append_cons (absent : mark ∉ front) (back : List α) :
    cutOnce mark (front ++ mark :: back) = some (front, back) := by
  induction front with
  -- The mark comes first, so the front is empty.
  | nil => simp [cutOnce]
  | cons x rest ih =>
    obtain ⟨other, below⟩ := not_or.mp (mt List.mem_cons.mpr absent)
    simp [cutOnce, Ne.symm other, ih below]

end Cut

/-- A text whose last line is not left open: it is empty, or a line feed ends it. -/
def EndsLine (s : String) : Prop :=
  s = "" ∨ ∃ front, s = front ++ "\n"

/-- Behind lines that are ended the lines of a text are its own. -/
theorem lines_append {s : String} (ends : EndsLine s) (t : String) : lines (s ++ t) = lines s ++ lines t := by
  rcases ends with rfl | ⟨front, rfl⟩
  · rw [String.empty_append]
    rfl
  · -- The line feed is the mark behind which the rest is cut by itself.
    have feed : ("\n" : String).toList = ['\n'] := rfl
    rw [lines, lines, lines, String.toList_append, String.toList_append, feed, List.append_assoc,
      List.singleton_append, cutAfter_append, List.map_append]

/-- A text without a line feed in it is one line when one is put behind it, less a carriage return at its
end. -/
theorem lines_line {s : String} (single : '\n' ∉ s.toList) :
    lines (s ++ "\n") = [String.ofList (bare (s.toList ++ ['\n']))] := by
  have feed : ("\n" : String).toList = ['\n'] := rfl
  rw [lines, String.toList_append, feed, cutAfter_of_notMem_append single, List.map_singleton]

/-- A line loses no more than its line feed and a carriage return in front of that. -/
theorem bare_append_feed (cs : List Char) :
    bare (cs ++ ['\n']) = cs ∨ cs = bare (cs ++ ['\n']) ++ ['\r'] := by
  rcases List.eq_nil_or_concat cs with rfl | ⟨front, last, rfl⟩
  · exact .inl rfl
  · -- Only a carriage return as the last character goes with the line feed.
    by_cases returned : last = '\r'
    · subst returned
      right
      simp [bare]
    · left
      simp only [bare, List.concat_eq_append, List.reverse_append, List.reverse_singleton,
        List.singleton_append]
      split
      · rename_i same
        exact absurd (List.cons.inj (List.cons.inj same).2).1 returned
      · rename_i same
        rw [← (List.cons.inj same).2]
        simp
      · rename_i other
        exact absurd rfl (other _)

end DialectBench.Text

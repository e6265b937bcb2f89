/-! Lines of a text, sequences cut after a mark, and texts cut once at a character. -/

namespace DialectBench.Text

variable {α : Type} [DecidableEq α]

/-- A sequence cut after every occurrence of a mark; a rest without the mark is the last piece. -/
def cutAfter (mark : α) : List α → List (List α)
  | [] => []
  | x :: rest =>
    if x = mark then [x] :: cutAfter mark rest
    else match cutAfter mark rest with
      | [] => [[x]]
      | piece :: pieces => (x :: piece) :: pieces

/-- The pieces put end to end are the sequence. -/
theorem flatten_cutAfter (mark : α) (xs : List α) : (cutAfter mark xs).flatten = xs := by
  -- Each element opens a piece or joins the one that follows it.
  induction xs with
  | nil => rfl
  | cons x rest joined =>
    by_cases here : x = mark
    · simp [cutAfter, here, joined]
    · cases pieces : cutAfter mark rest <;> simp_all [cutAfter]

/-- No piece is empty. -/
theorem ne_nil_of_mem_cutAfter {mark : α} {xs piece : List α} (mem : piece ∈ cutAfter mark xs) :
    piece ≠ [] := by
  -- A piece starts with the element that opened it.
  induction xs generalizing piece with
  | nil => simp [cutAfter] at mem
  | cons x rest shown =>
    by_cases here : x = mark
    · simp only [cutAfter, if_pos here, List.mem_cons] at mem
      rcases mem with rfl | mem
      · simp
      · exact shown mem
    · simp only [cutAfter, if_neg here] at mem
      cases pieces : cutAfter mark rest with
      | nil => simp_all
      | cons first others =>
        simp only [pieces, List.mem_cons] at mem
        rcases mem with rfl | mem
        · simp
        · exact shown (by simp [pieces, mem])

/-- A piece without the line feed that ends it and without one carriage return before that. -/
def bare (piece : List Char) : List Char :=
  match piece.reverse with
  | '\n' :: '\r' :: rest => rest.reverse
  | '\n' :: rest => rest.reverse
  | _ => piece

/-- The lines of a text: a line feed ends a line, and a carriage return alone does not. -/
def lines (s : String) : List String :=
  (cutAfter '\n' s.toList).map fun piece => String.ofList (bare piece)

/-- A list cut at the first occurrence of a mark, which is left out. -/
def cutOnce (mark : α) : List α → Option (List α × List α)
  | [] => none
  | x :: rest =>
    if x = mark then some ([], rest)
    else (cutOnce mark rest).map fun (front, back) => (x :: front, back)

/-- A text cut at the first occurrence of a character, which is left out. -/
def splitOnce (mark : Char) (s : String) : Option (String × String) :=
  (cutOnce mark s.toList).map fun (front, back) => (String.ofList front, String.ofList back)

/-- What is cut at a mark is put together again around it. -/
theorem eq_append_of_cutOnce {mark : α} {xs front back : List α}
    (cut : cutOnce mark xs = some (front, back)) : xs = front ++ mark :: back := by
  -- The first element either is the mark or goes to the front.
  induction xs generalizing front back with
  | nil => simp [cutOnce] at cut
  | cons x rest joined =>
    by_cases here : x = mark
    · simp_all [cutOnce]
    · simp only [cutOnce, if_neg here, Option.map_eq_some_iff, Prod.mk.injEq] at cut
      obtain ⟨⟨front', back'⟩, cut', rfl, rfl⟩ := cut
      simp [joined cut']

/-- A text begins with another. -/
def startsWith (s start : String) : Bool :=
  start.toList.isPrefixOf s.toList

/-- A text ends with another. -/
def endsWith (s stop : String) : Bool :=
  stop.toList.isSuffixOf s.toList

/-- A list occurs in another as a run. -/
def occursIn (part : List α) : List α → Bool
  | [] => part.isEmpty
  | x :: rest => part.isPrefixOf (x :: rest) || occursIn part rest

/-- A text occurs in another. -/
def contains (s part : String) : Bool :=
  occursIn part.toList s.toList

end DialectBench.Text

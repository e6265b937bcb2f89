/-! File names made of a text: every run of characters that a name does not admit becomes a dash. -/

namespace DialectBench.Text

/-- The characters kept in a file name. -/
def isNameChar (c : Char) : Bool :=
  c.isAlphanum || c == '_' || c == '.' || c == '-'

/-- A text whose maximal runs of other characters are a dash each; a run goes on from before when
told so. -/
def slugFrom (within : Bool) : List Char → List Char
  | [] => []
  | c :: rest =>
    if isNameChar c then c :: slugFrom false rest
    else if within then slugFrom true rest
    else '-' :: slugFrom true rest

/-- A text as part of a file name. -/
def slug (s : String) : String :=
  String.ofList (slugFrom false s.toList)

/-- Every character of the result is admitted. -/
theorem isNameChar_of_mem_slugFrom {within : Bool} {cs : List Char} {c : Char}
    (mem : c ∈ slugFrom within cs) : isNameChar c = true := by
  -- A character is kept because it is admitted, and the dash is one.
  induction cs generalizing within with
  | nil => simp [slugFrom] at mem
  | cons d rest admitted =>
    by_cases kept : isNameChar d = true
    · simp only [slugFrom, if_pos kept, List.mem_cons] at mem
      rcases mem with rfl | mem
      · exact kept
      · exact admitted mem
    · cases within with
      | true =>
        simp only [slugFrom, if_neg kept, if_true] at mem
        exact admitted mem
      | false =>
        simp only [slugFrom, if_neg kept, Bool.false_eq_true, if_false, List.mem_cons] at mem
        rcases mem with rfl | mem
        · decide
        · exact admitted mem

end DialectBench.Text

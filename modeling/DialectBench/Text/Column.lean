/-! Texts filled up with spaces to the width of a column, counted in characters. -/

namespace DialectBench.Text

/-- A text filled up on the right; one that is wide enough stays as it is. -/
def padRight (width : Nat) (s : String) : String :=
  s ++ String.ofList (List.replicate (width - s.length) ' ')

/-- A text filled up on the left; one that is wide enough stays as it is. -/
def padLeft (width : Nat) (s : String) : String :=
  String.ofList (List.replicate (width - s.length) ' ') ++ s

end DialectBench.Text

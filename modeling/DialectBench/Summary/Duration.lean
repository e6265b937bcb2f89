/-! Durations as hours, minutes and seconds. -/

namespace DialectBench.Summary

/-- A number of a unit; zero is left out. -/
def unit (count : Nat) (name : String) : String :=
  if count > 0 then toString count ++ name else ""

/-- Whole seconds as hours, minutes and seconds; units of zero are left out unless all are zero. -/
def wholeDuration (seconds : Nat) : String :=
  if seconds = 0 then "0s"
  else
    unit (seconds / 3600) "h" ++ unit (seconds % 3600 / 60) "m" ++ unit (seconds % 60) "s"

/-- Seconds rounded to a whole number that fits into 64 bits; a half goes away from zero, and what
is not positive counts as nothing. -/
def wholeSeconds (seconds : Float) : Nat :=
  if seconds > 0 then seconds.round.toUInt64.toNat else 0

/-- Seconds as hours, minutes and seconds. -/
def duration (seconds : Float) : String :=
  wholeDuration (wholeSeconds seconds)

end DialectBench.Summary

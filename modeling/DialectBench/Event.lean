/-! What a run tells its operator besides its results. -/

namespace DialectBench

/-- A line of the operator's log. -/
inductive Event where
  /-- Something went wrong that does not end the run. -/
  | warning (words : String)
  /-- Something went wrong that the run was about. -/
  | error (words : String)
  /-- What a rehearsal would have done, with particulars. -/
  | rehearsal (words : String) (particulars : List (String × String))
  deriving DecidableEq, Repr

/-- The line of an event. -/
def Event.line : Event → String
  | warning words => "WARN " ++ words
  | error words => "ERROR " ++ words
  | rehearsal words particulars =>
    "INFO [dry-run] " ++ words
      ++ String.join (particulars.map fun (name, value) => " " ++ name ++ "=" ++ value)

end DialectBench

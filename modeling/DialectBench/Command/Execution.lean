import DialectBench.Command.Basic
import DialectBench.Disk.Change
import DialectBench.Watching.Watch

/-! Executions: what a command does from its start to its end, with the times at which it does it.
Times are counted in nanoseconds from the start. -/

namespace DialectBench

/-- Something that a command writes. -/
structure Emission where
  /-- When it is written. -/
  time : Nat
  /-- The stream. -/
  channel : Watching.Channel
  /-- What is written. -/
  content : Bytes
  /-- It is written by something that goes on when the command is stopped. -/
  detached : Bool := false
  deriving DecidableEq, Repr

/-- A period in which something besides the command itself holds its streams open. -/
structure Hold where
  /-- The start of the period. -/
  start : Nat
  /-- The end of the period. -/
  stop : Nat
  deriving DecidableEq, Repr

/-- What a command does. -/
structure Execution where
  /-- What is written, in the order of time. -/
  emissions : List Emission
  /-- When something else holds the streams open. -/
  holds : List Hold
  /-- How the file tree is changed, in the order of time. -/
  changes : List (Nat × Change)
  /-- When the command ends. -/
  finish : Nat
  /-- The exit status. -/
  status : Int
  deriving Repr

/-- What starts commands: it tells what a command does in a file tree, or why the system refuses to
start it. -/
abbrev Starter : Type := Command → Disk → Except OsError Execution

namespace Execution

/-- All that is written to a stream. -/
def written (execution : Execution) (channel : Watching.Channel) : Bytes :=
  (execution.emissions.filter fun emission => emission.channel = channel).flatMap Emission.content

/-- A file tree after a command that ran up to a time. -/
def changed (execution : Execution) (d : Disk) (time : Nat) : Disk :=
  let early := execution.changes.filter fun (moment, _) => moment ≤ time
  let after := d.applyAll (early.map Prod.snd)
  { after with clock := after.clock + time }

/-- When the streams are closed, if the command itself is gone at a time. -/
def closing (execution : Execution) (time : Nat) : Nat :=
  (execution.holds.filter fun hold => hold.start ≤ time).foldl
    (fun latest hold => max latest hold.stop) time

end Execution

end DialectBench

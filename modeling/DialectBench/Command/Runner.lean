import DialectBench.Event
import DialectBench.Command.Basic
import DialectBench.Watching.Timing

/-! Runners: whatever launches the commands of the bench and lets the world change meanwhile. -/

namespace DialectBench

/-- A point in time in the two forms in which it is written down. -/
structure Moment where
  /-- The local time, as it goes into names. -/
  stamp : String
  /-- The universal time. -/
  universal : String
  deriving DecidableEq, Repr

/-- The part of the world that changes while a command runs. -/
structure Scene where
  /-- The file tree. -/
  disk : Disk
  /-- The operator has asked to stop. -/
  interrupted : Bool
  /-- The time of day. -/
  moment : Moment
  deriving DecidableEq, Repr

/-- A command handed to a runner. -/
inductive Call where
  /-- A command to be run to its end. -/
  | run (command : Command)
  /-- A command to be watched while its output goes to a log. -/
  | stream (command : Command) (log : Path) (idle : Nat)
  deriving DecidableEq, Repr

/-- The command of a call. -/
def Call.command : Call → Command
  | run command => command
  | stream command _ _ => command

/-- What there is after a call. -/
structure Aftermath (α : Type) where
  /-- What is left of the command, or why it was not launched. -/
  outcome : Except Failure α
  /-- The world after it. -/
  scene : Scene
  /-- What the runner tells the operator. -/
  events : List Event := []
  /-- What the runner shows on standard output. -/
  shown : Bytes := []

/-- What a runner gives back for a call. -/
inductive Reply where
  /-- For a command that was to be run to its end. -/
  | output (outcome : Except Failure Output)
  /-- For a command that was to be watched. -/
  | ending (outcome : Except Failure Ending)

/-- A call with what came of it and the world on both sides of it. -/
structure Exchange where
  /-- The call. -/
  call : Call
  /-- What the runner gave back. -/
  reply : Reply
  /-- The world before it. -/
  before : Scene
  /-- The world after it. -/
  after : Scene

/-- A runner decides from the calls so far, the newest first, and the world as it is. -/
structure Runner where
  /-- Runs a command to its end. -/
  run : List Call → Command → Scene → Aftermath Output
  /-- Runs a command while its output goes to a log. -/
  stream : List Call → Command → Path → Watching.Timing → Scene → Aftermath Ending

/-- The runner of a rehearsal tells of every command and reports success. -/
def Runner.rehearsal : Runner where
  run _ command scene :=
    { outcome := .ok Output.silent, scene,
      events := [.rehearsal "would execute" [("command", command.render)]] }
  stream _ command log timing scene :=
    { outcome := .ok ⟨0, false⟩, scene,
      events := [.rehearsal "would stream" [("command", command.render), ("log", log.text),
        ("idle_timeout_secs", toString (timing.idle / Watching.second))]] }

end DialectBench

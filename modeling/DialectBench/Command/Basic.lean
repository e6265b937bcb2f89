import DialectBench.Fault
import DialectBench.Shell.Quoting
import DialectBench.Text.Blank

/-! Commands to be launched, and what is left of them when they have ended. -/

namespace DialectBench

/-- A command with everything that is needed to launch it. -/
structure Command where
  /-- The program. -/
  program : String
  /-- The arguments after the program. -/
  arguments : List String
  /-- The directory to run in. -/
  directory : Option Path := none
  /-- Variables set for the command. -/
  bindings : List (String × String) := []
  /-- The output is not wanted. -/
  quiet : Bool := false
  deriving DecidableEq, Repr

namespace Command

/-- The words of a command. -/
def words (command : Command) : List String :=
  command.program :: command.arguments

/-- A command as one would type it. -/
def render (command : Command) : String :=
  Shell.joinWords command.words

end Command

/-- What is left of a command that ran to its end. -/
structure Output where
  /-- The exit status. -/
  status : Int
  /-- What it wrote to standard output. -/
  stdout : String
  /-- What it wrote to standard error. -/
  stderr : String
  deriving DecidableEq, Repr

namespace Output

/-- A silent success. -/
def silent : Output := ⟨0, "", ""⟩

/-- The command succeeded. -/
def succeeded (output : Output) : Bool :=
  output.status == 0

/-- A status other than zero is a fault, told with the words of the command if it wrote any. -/
def demandSuccess (output : Output) (command : Command) : Except Failure Unit :=
  if output.succeeded then .ok ()
  else .error (.of (.exited command.render output.status (Text.trimmed output.stderr)))

end Output

/-- What is left of a watched command. -/
structure Ending where
  /-- The exit code. -/
  exitCode : Int
  /-- It was stopped because it was silent for too long. -/
  timedOut : Bool
  deriving DecidableEq, Repr

end DialectBench

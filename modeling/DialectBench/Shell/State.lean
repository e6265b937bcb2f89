import DialectBench.Command.Execution
import DialectBench.Shell.Locate
import DialectBench.Shell.Script

/-! The state of a shell that runs a script: what it knows, and what it has done so far. -/

namespace DialectBench.Shell

/-- Where something that is written goes to. -/
inductive Sink where
  /-- A stream of the command. -/
  | channel (channel : Watching.Channel)
  /-- The script itself, which reads it. -/
  | captured
  /-- The end of a file. -/
  | file (place : Location)
  /-- Nowhere. -/
  | nowhere
  deriving DecidableEq, Repr

/-- Where the two streams of a command go to. -/
structure Route where
  /-- Standard output. -/
  out : Sink := .channel .out
  /-- Standard error. -/
  err : Sink := .channel .err
  deriving DecidableEq, Repr

/-- Why a script does not go on with its next command. -/
inductive Jump where
  /-- The shell ends with a status. -/
  | exit (status : Nat)
  /-- The shell is killed by a signal. -/
  | killed (signal : Nat)
  /-- The function that runs ends. -/
  | back
  /-- So many loops are left. -/
  | leave (loops : Nat)
  /-- The last of so many loops goes on with its next round. -/
  | proceed (loops : Nat)
  deriving DecidableEq, Repr

/-- The state of a shell; what was done last comes first. -/
structure State where
  /-- The name of the script. -/
  name : String
  /-- The arguments of the script. -/
  arguments : List String
  /-- The number of the process. -/
  process : Nat
  /-- The variables. -/
  bindings : List (String × String)
  /-- The variables that are handed to programs. -/
  exported : List String
  /-- The functions by their names, the newest first. -/
  functions : List (String × Script) := []
  /-- What can be read from standard input. -/
  input : Bytes
  /-- Where the streams go to. -/
  route : Route := {}
  /-- The file tree, with the directory that the shell works in. -/
  disk : Disk
  /-- The time since the start in nanoseconds. -/
  clock : Nat := 0
  /-- The status of the last command. -/
  status : Nat := 0
  /-- Why the script does not go on, if it does not. -/
  jump : Option Jump := none
  /-- What was written to the streams. -/
  emissions : List Emission := []
  /-- What was written to the script itself. -/
  captured : List Bytes := []
  /-- When something else holds the streams open. -/
  holds : List Hold := []
  /-- How the file tree was changed. -/
  changes : List (Nat × Change) := []
  /-- The end of the last of the scripts that nobody waits for. -/
  jobsEnd : Nat := 0

namespace State

/-- The value of a variable; the directory is known without one. -/
def variableValue? (s : State) (name : String) : Option String :=
  match s.bindings.lookup name with
  | some value => some value
  | none => if name = "PWD" then some (Tool.pathOf s.disk.current) else none

/-- The value of a parameter, if it is set. -/
def parameter? (s : State) (name : String) : Option String :=
  match name with
  | "?" => some (toString s.status)
  | "$" => some (toString s.process)
  | "#" => some (toString s.arguments.length)
  | "0" => some s.name
  | "@" => some (" ".intercalate s.arguments)
  | "*" => some (" ".intercalate s.arguments)
  | _ =>
    match Number.digits? name.toList with
    | some position => s.arguments[position - 1]?
    | none => s.variableValue? name

/-- A state with another value of a variable. -/
def assign (s : State) (name value : String) : State :=
  { s with bindings := (name, value) :: s.bindings.filter fun (other, _) => other != name }

/-- The variables that are handed to programs. -/
def environment (s : State) : List (String × String) :=
  s.bindings.filter fun (name, _) => s.exported.contains name

/-- A state after a change of the file tree. -/
def change (s : State) (change : Change) : State :=
  { s with disk := s.disk.apply change, changes := (s.clock, change) :: s.changes }

/-- A state after something was written. -/
def write (s : State) (sink : Sink) (content : Bytes) : State :=
  if content.isEmpty then s
  else
    match sink with
    | .channel channel =>
      { s with emissions := { time := s.clock, channel, content } :: s.emissions }
    | .captured => { s with captured := content :: s.captured }
    | .file place => s.change (.extendFile place content)
    | .nowhere => s

/-- A state after some time. -/
def elapse (s : State) (duration : Nat) : State :=
  { s with clock := s.clock + duration }

/-- The time that a command of the shell itself takes. -/
def builtinTime : Nat := 10000

/-- The time that it takes to start a program. -/
def programTime : Nat := Watching.millisecond

/-- A state with a status. -/
def withStatus (s : State) (status : Nat) : State :=
  { s with status }

/-- What the complaints of the shell about a command on a line begin with. -/
def title (s : State) (line : Nat) : String :=
  s.name ++ ": " ++ toString line ++ ": "

/-- A complaint of the shell about a command on a line. -/
def complain (s : State) (line : Nat) (words : String) (status : Nat) : State :=
  (s.write s.route.err (Text.encode (s.title line ++ words ++ "\n"))).withStatus status

/-- The status that the end of a shell gives. -/
def endStatus (s : State) : Nat :=
  match s.jump with
  | some (.exit status) => status
  | some (.killed signal) => 128 + signal
  | _ => s.status

/-- A state after a script of its own that had another state: the file tree and all that was done
stay, and the settings come back. -/
def afterSubshell (s inner : State) : State :=
  { inner with
    name := s.name, arguments := s.arguments, process := s.process, bindings := s.bindings,
    exported := s.exported, functions := s.functions, input := s.input, route := s.route,
    disk := { inner.disk with current := s.disk.current },
    status := inner.endStatus, jump := none }

/-- A state in which a period holds the streams open. -/
def hold (s : State) (start : Nat) : State :=
  if start < s.clock then { s with holds := ⟨start, s.clock⟩ :: s.holds } else s

/-- What a shell did, when it has ended. A program at the very end of a script takes the place of
the shell, so that it is not something else that holds the streams open. -/
def execution (s : State) : Execution where
  emissions := s.emissions.reverse.mergeSort fun a b => a.time ≤ b.time
  holds := s.holds.filter fun hold => hold.stop ≠ s.clock
  changes := s.changes.reverse
  finish := s.clock
  status := s.endStatus

end State

end DialectBench.Shell

import DialectBench.Shell.Evaluate

/-! Starting commands: the program is found, and what it does is followed to its end. -/

namespace DialectBench.Shell

/-- Variables with some of them set anew. -/
def overlay (given : List (String × String)) (bindings : List (String × String)) :
    List (String × String) :=
  given.foldl (fun bindings (name, value) =>
    (name, value) :: bindings.filter fun (other, _) => other != name) bindings

/-- A file tree with the directory that a command works in. -/
def enter (d : Disk) (directory : Option Path) : Except OsError Disk :=
  match directory with
  | none => .ok d
  | some path =>
    match d.entry path with
    | .ok (place, .directory _) => .ok { d with current := place }
    | .ok _ => .error .notADirectory
    | .error refusal => .error refusal

/-- The number of the first process. -/
def firstProcess : Nat := 4711

/-- The number of steps that a script is followed for. -/
def patience : Nat := 100000

/-- The state in which a program starts. -/
def startState (d : Disk) (bindings : List (String × String)) (command : Command) : State where
  name := command.program
  arguments := command.arguments
  process := firstProcess
  bindings := bindings
  exported := bindings.map Prod.fst
  input := []
  disk := d
  clock := State.programTime

/-- Starts commands with some environment variables. -/
def starter (environment : List (String × String)) : Starter := fun command d => do
  let bindings := overlay command.bindings environment
  let d ← enter d command.directory
  let (path, program) ← locate d (bindings.lookup "PATH") command.program
  let start := startState d bindings command
  return (launch patience path program command.program command.arguments start).execution

end DialectBench.Shell

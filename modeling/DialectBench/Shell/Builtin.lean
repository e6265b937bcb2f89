import DialectBench.Shell.State

/-! The commands of the shell that change its own state. -/

namespace DialectBench.Shell

/-- The numbers of signals by their names. -/
def signals : List (String × Nat) :=
  [("HUP", 1), ("INT", 2), ("QUIT", 3), ("ILL", 4), ("ABRT", 6), ("FPE", 8), ("KILL", 9),
    ("USR1", 10), ("SEGV", 11), ("USR2", 12), ("PIPE", 13), ("ALRM", 14), ("TERM", 15)]

/-- The signal that a word names, by number or by name. -/
def signalOf? (word : String) : Option Nat :=
  let name := if word.startsWith "SIG" then String.ofList (word.toList.drop 3) else word
  (Number.digits? word.toList).or (signals.lookup name)

/-- The signal that the arguments of a kill ask for, and the processes. -/
def killTargets : List String → Option Nat × List String
  | "-s" :: name :: targets => (signalOf? name, targets)
  | word :: targets =>
    match word.toList with
    | '-' :: name => (signalOf? (String.ofList name), targets)
    | _ => (some 15, word :: targets)
  | [] => (none, [])

namespace State

/-- The shell ends with the status that is given, or else with that of the last command. -/
def leave (s : State) (line : Nat) (arguments : List String) : State :=
  match arguments with
  | [] => { s with jump := some (.exit s.status) }
  | word :: _ =>
    match Number.digits? word.toList with
    | some status => { s with jump := some (.exit (status % 256)) }
    | none =>
      { s.complain line ("exit: Illegal number: " ++ word) 2 with jump := some (.exit 2) }

/-- The function that runs ends, likewise with a status. -/
def giveBack (s : State) (arguments : List String) : State :=
  let status := (arguments.head?.bind fun word => Number.digits? word.toList).getD s.status
  { s with status := status % 256, jump := some .back }

/-- Settings of the shell are changed; only new arguments matter. -/
def adjust (s : State) (arguments : List String) : State :=
  match arguments with
  | "--" :: words => { s with arguments := words, status := 0 }
  | word :: words =>
    if word.startsWith "-" || word.startsWith "+" then s.withStatus 0
    else { s with arguments := word :: words, status := 0 }
  | [] => s.withStatus 0

/-- A signal is sent to processes; only the shell itself can be reached. -/
def kill (s : State) (line : Nat) (arguments : List String) : State :=
  match killTargets arguments with
  | (some signal, targets) =>
    if targets.contains (toString s.process) then
      if signal = 0 then s.withStatus 0 else { s with jump := some (.killed signal) }
    else s.complain line "kill: No such process" 1
  | (none, _) => s.complain line "kill: Illegal option" 2

/-- The shell works in another directory. -/
def changeDirectory (s : State) (line : Nat) (arguments : List String) : State :=
  let target := (arguments.head?.or (s.variableValue? "HOME")).getD "/"
  match s.disk.directory? ⟨target⟩ with
  | some place => { s with disk := { s.disk with current := place }, status := 0 }
  | none => s.complain line ("cd: can't cd to " ++ target) 2

/-- A variable is handed to programs; it may get a value. -/
def exportOne (s : State) (word : String) : State :=
  let (name, s) := match Text.splitOnce '=' word with
    | some (name, value) => (name, s.assign name value)
    | none => (word, s)
  { s with exported := name :: s.exported.filter (· != name) }

/-- Variables are handed to programs. -/
def exportAll (s : State) (arguments : List String) : State :=
  (arguments.foldl exportOne s).withStatus 0

/-- Variables are forgotten. -/
def forget (s : State) (arguments : List String) : State :=
  let kept := s.bindings.filter fun (name, _) => !arguments.contains name
  { s with bindings := kept, status := 0 }

/-- Arguments are dropped from the front. -/
def shift (s : State) (arguments : List String) : State :=
  let count := (arguments.head?.bind fun word => Number.digits? word.toList).getD 1
  { s with arguments := s.arguments.drop count, status := 0 }

/-- The words of a line go to variables, the rest of the line to the last one. -/
def assignWords (s : State) : List String → List Char → State
  | [], _ => s
  | [name], text => s.assign name (Text.trimmed (String.ofList text))
  | name :: names, text =>
    let text := text.dropWhile Text.isBlank
    let word := text.takeWhile fun c => !Text.isBlank c
    (s.assign name (String.ofList word)).assignWords names (text.drop word.length)

/-- A line of the input is read into variables. -/
def readLine (s : State) (arguments : List String) : State :=
  let names := arguments.filter fun word => !word.startsWith "-"
  match Text.cutOnce 10 s.input with
  | some (line, rest) =>
    ({ s with input := rest }.assignWords names (Text.textLossy line).toList).withStatus 0
  | none =>
    ({ s with input := [] }.assignWords names (Text.textLossy s.input).toList).withStatus 1

/-- The shell waits for the scripts that nobody waited for. -/
def wait (s : State) : State :=
  { s with clock := max s.clock s.jobsEnd, status := 0 }

/-- The number of loops that a command is about. -/
def loopCount (arguments : List String) : Nat :=
  max 1 ((arguments.head?.bind fun word => Number.digits? word.toList).getD 1)

/-- The state after a command of the shell itself, if it is one. -/
def builtin? (s : State) (line : Nat) (name : String)
    (arguments : List String) : Option State :=
  match name with
  | "exit" => some (s.leave line arguments)
  | "return" => some (s.giveBack arguments)
  | "kill" => some (s.kill line arguments)
  | "cd" => some (s.changeDirectory line arguments)
  | "export" => some (s.exportAll arguments)
  | "unset" => some (s.forget arguments)
  | "shift" => some (s.shift arguments)
  | "read" => some (s.readLine arguments)
  | "wait" => some s.wait
  | "break" => some { s with jump := some (.leave (loopCount arguments)), status := 0 }
  | "continue" => some { s with jump := some (.proceed (loopCount arguments)), status := 0 }
  | "set" => some (s.adjust arguments)
  | "trap" => some (s.withStatus 0)
  | "umask" => some (s.withStatus 0)
  | _ => none

/-- The state after a tool, whose complaints begin with a title. -/
def runTool (s : State) (title name : String) (arguments : List String) (tool : Tool) : State :=
  let result := tool { name, title, arguments, input := s.input, disk := s.disk }
  let s := s.elapse result.sleeps
  let s := result.changes.foldl change s
  ((s.write s.route.err result.err).write s.route.out result.out).withStatus result.status

end State

end DialectBench.Shell

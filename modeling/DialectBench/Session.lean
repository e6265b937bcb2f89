import DialectBench.Disk.Change
import DialectBench.Command.Runner

/-! Actions of the bench: what they change stays changed also when they fail. -/

namespace DialectBench

/-- The world of a run and what has been done in it. -/
structure Session where
  /-- The part of the world that commands may change. -/
  scene : Scene
  /-- The changes of the file tree, the newest first. -/
  changes : List Change := []
  /-- The calls of commands with what came of them, the newest first. -/
  exchanges : List Exchange := []
  /-- What the operator was told, the newest first. -/
  events : List Event := []
  /-- What went to standard output. -/
  shown : Bytes := []

/-- The calls of commands in a session, the newest first. -/
def Session.calls (s : Session) : List Call :=
  s.exchanges.map Exchange.call

/-- Something that works in a session and may fail. -/
abbrev Action (α : Type) : Type := ExceptT Failure (StateM Session) α

namespace Action

/-- The file tree as it is. -/
def disk : Action Disk := do
  return (← get).scene.disk

/-- Looks something up in the file tree. -/
def look {α : Type} (query : Disk → α) : Action α := do
  return query (← disk)

/-- Changes the file tree. -/
def perform (change : Change) : Action Unit :=
  modify fun s =>
    { s with scene := { s.scene with disk := s.scene.disk.apply change },
             changes := change :: s.changes }

/-- Changes the file tree several times. -/
def performAll : List Change → Action Unit
  | [] => return ()
  | change :: changes => do
    perform change
    performAll changes

/-- Tells the operator something. -/
def tell (event : Event) : Action Unit :=
  modify fun s => { s with events := event :: s.events }

/-- Tells the operator about something that went wrong. -/
def warn (words : String) : Action Unit :=
  tell (.warning words)

/-- Writes a line to standard output. -/
def printLine (line : String) : Action Unit :=
  modify fun s => { s with shown := s.shown ++ Text.encode (line ++ "\n") }

/-- Writes lines to standard output. -/
def printLines : List String → Action Unit
  | [] => return ()
  | line :: lines => do
    printLine line
    printLines lines

/-- Fails for a reason. -/
def refuse {α : Type} (fault : Fault) : Action α :=
  throw (.of fault)

/-- Takes a result over. -/
def ofExcept {α : Type} : Except Failure α → Action α
  | .ok value => return value
  | .error failure => throw failure

/-- Takes over what the system allows; a refusal is met during a step. -/
def allowed {α : Type} (step : Fault) : Except OsError α → Action α
  | .ok value => return value
  | .error refusal => throw (.during step refusal)

/-- Names the step that an action is part of. -/
def within {α : Type} (step : Fault) (action : Action α) : Action α :=
  tryCatch action fun failure => throw (failure.within step)

/-- Goes on with what came of an action, also when it failed. -/
def attempt {α : Type} (action : Action α) : Action (Except Failure α) :=
  tryCatch (do return .ok (← action)) fun failure => return .error failure

/-- Fails when the operator has asked to stop. -/
def stopIfAsked : Action Unit := do
  if (← get).scene.interrupted then throw Failure.interruption

/-- The local time, as it goes into names. -/
def stamp : Action String := do
  return (← get).scene.moment.stamp

/-- The universal time. -/
def universal : Action String := do
  return (← get).scene.moment.universal

/-- The world after a call; a request to stop is not taken back. -/
def settled {α : Type} (after : Aftermath α) (s : Session) : Scene :=
  { after.scene with interrupted := s.scene.interrupted || after.scene.interrupted }

/-- A session after a call. -/
def settle {α : Type} (call : Call) (reply : Reply) (after : Aftermath α) (s : Session) :
    Session :=
  { scene := settled after s,
    changes := .adopt after.scene.disk :: s.changes,
    exchanges := ⟨call, reply, s.scene, settled after s⟩ :: s.exchanges,
    events := after.events.reverse ++ s.events,
    shown := s.shown ++ after.shown }

/-- Runs a command to its end. -/
def run (runner : Runner) (command : Command) : Action Output := do
  let s ← get
  let after := runner.run s.calls command s.scene
  set (settle (.run command) (.output after.outcome) after s)
  ofExcept after.outcome

/-- Runs a command to its end and fails unless it succeeds. -/
def runToSuccess (runner : Runner) (command : Command) : Action Output := do
  let output ← run runner command
  ofExcept (output.demandSuccess command)
  return output

/-- Runs a command while its output goes to a log. -/
def stream (runner : Runner) (command : Command) (log : Path) (timing : Watching.Timing) :
    Action Ending := do
  let s ← get
  let after := runner.stream s.calls command log timing s.scene
  set (settle (.stream command log timing.idle) (.ending after.outcome) after s)
  ofExcept after.outcome

end Action

end DialectBench

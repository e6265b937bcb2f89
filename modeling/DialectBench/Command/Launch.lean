import DialectBench.Disk.Walk
import DialectBench.Text.Visible
import DialectBench.Watching.Follow

/-! Runners that launch the commands which a starter starts. -/

namespace DialectBench

/-- What there is after an action in a scene. -/
def Aftermath.ofAction {α : Type} (action : Action α) (scene : Scene) : Aftermath α :=
  let (outcome, session) := (ExceptT.run action).run { scene }
  { outcome, scene := session.scene, events := session.events.reverse, shown := session.shown }

namespace Launch

/-- Starts a command. -/
def start (starter : Starter) (command : Command) (step : Fault) : Action Execution := do
  Action.allowed step (← Action.look fun d => starter command d)

/-- Lets a command change the file tree up to a time. -/
def settle (execution : Execution) (time : Nat) : Action Unit := do
  Action.perform (.adopt (← Action.look fun d => execution.changed d time))

/-- What a command has left when it ran to its end. -/
def outputOf (command : Command) (execution : Execution) : Output :=
  if command.quiet then ⟨execution.status, "", ""⟩
  else ⟨execution.status, Text.textLossy (execution.written .out),
    Text.textLossy (execution.written .err)⟩

/-- Runs a command to its end. -/
def run (starter : Starter) (command : Command) : Action Output := do
  let execution ← start starter command (.cannotExecute command.render)
  settle execution execution.finish
  return outputOf command execution

/-- Opens a log, which is made if it is missing and keeps what it holds. -/
def openLog (log : Path) : Action Location := do
  Action.prepareParent log
  let place ← Action.allowed (.openLog log) (← Action.look fun d => d.filePlace log)
  if !(← Action.look fun d => (d.find? place).isSome) then Action.perform (.writeFile place [])
  return place

/-- Runs a command under a watch while its output goes to the end of a log. -/
def watch (starter : Starter) (command : Command) (log : Path) (timing : Watching.Timing) :
    Action Watching.Verdict := do
  -- The log is opened first, so it is there even if the command cannot be started.
  let place ← openLog log
  let execution ← start starter command (.cannotSpawn (Text.inDoubleQuotes command.program))
  let ended := Watching.Watch.follow timing (← get).scene.interrupted execution
  -- A command that is stopped has changed only what it came to before.
  settle execution ended.clock
  Action.perform (.extendFile place ended.logged)
  ended.events.reverse.forM Action.tell
  modify fun s => { s with shown := s.shown ++ ended.shown }
  return ended.verdict.getD .interrupted

/-- The end of a watched command by the verdict on it. -/
def endingOf (verdict : Watching.Verdict) : Ending :=
  ⟨verdict.exitCode, verdict = .idled⟩

end Launch

/-- The runner that launches the commands which a starter starts. -/
def Runner.launching (starter : Starter) : Runner where
  run _ command := Aftermath.ofAction (Launch.run starter command)
  stream _ command log timing :=
    Aftermath.ofAction (Launch.endingOf <$> Launch.watch starter command log timing)

end DialectBench

import DialectBench.Command.Launch
import DialectBench.CommandLine.Options

/-! The program: what each subcommand does, and the exit code that comes of it. -/

namespace DialectBench

/-- What the program is run in. -/
structure Surroundings where
  /-- The environment variables. -/
  environment : CommandLine.Environment
  /-- What starts commands. -/
  starter : Starter

namespace Program

open CommandLine

/-- What launches the commands: in a rehearsal nothing does. -/
def runnerFor (surroundings : Surroundings) (dryRun : Bool) : Runner :=
  if dryRun then .rehearsal else .launching surroundings.starter

/-- The lab that arguments describe. -/
def labOf (surroundings : Surroundings) (given : LabArguments) : Action Lab := do
  let d ← Action.disk
  Action.ofExcept (Lab.ofArguments d surroundings.environment given)

/-- Tells what cannot be used of a number of seconds. -/
def tellTiming (idle : Int) : Action Unit :=
  (Watching.warningsFor idle).forM Action.tell

/-- Runs a comparison. -/
def run (surroundings : Surroundings) (given : RunArguments) : Action Int := do
  -- A lab that is not right is told before options that contradict each other.
  let lab ← labOf surroundings given.lab
  let options ← Action.ofExcept (BenchOptions.ofArguments given)
  tellTiming given.idleTimeout
  let runner := runnerFor surroundings options.dryRun
  let report ← Bench.execute { lab, options, runner }
  Action.printLines report.lines
  return report.exitCode

/-- Runs a failing test again. -/
def repro (surroundings : Surroundings) (given : ReproArguments) : Action Int := do
  let lab ← labOf surroundings given.lab
  let options ← Action.ofExcept (RerunOptions.ofArguments given)
  tellTiming given.idleTimeout
  let outcome ← Rerun.execute { lab, options, runner := runnerFor surroundings false }
  Action.printLines (Rerun.outcomeLines outcome)
  return outcome.exitCode

/-- Tells how a watched command ended, if it did not succeed. -/
def tellVerdict (verdict : Watching.Verdict) : Action Unit :=
  match verdict with
  | .interrupted => Action.warn "command interrupted"
  | .idled => return ()
  | .exited status => if status = 0 then return () else Action.warn "command failed"

/-- Watches a command. -/
def watch (surroundings : Surroundings) (given : WatchArguments) : Action Int := do
  tellTiming given.timeout
  match given.command with
  | [] => Action.refuse .nothingToWatch
  | program :: arguments =>
    let timing := Watching.Timing.ofSeconds given.timeout given.heartbeat
    let verdict ← Launch.watch surroundings.starter { program, arguments } given.logFile timing
    tellVerdict verdict
    return verdict.exitCode

/-- Collects results. -/
def collect (given : CollectArguments) : Action Int := do
  let now ← Action.stamp
  let _ ← Collection.collect {
    root := given.root
    destination := given.destination
    timestamp := given.timestamp.getD now
    log := given.log
    logDirectory := given.logDirectory
    removeSource := given.removeSource
    backend := given.backend }
  return 0

/-- Summarizes results. -/
def summarize (request : Summary.Request) : Action Int := do
  let result ← Summary.summarize request
  Action.printLines (Summary.accountLines result)
  return 0

/-- Cleans up. -/
def cleanup (surroundings : Surroundings) (given : CleanupArguments) : Action Int := do
  let lab ← labOf surroundings given.lab
  let options := CleanupScope.ofArguments given lab
  let _ ← Cleanup.execute lab options (runnerFor surroundings options.dryRun)
  return 0

/-- Does what a subcommand says, and gives the exit code. -/
def perform (surroundings : Surroundings) : Invocation → Action Int
  | .run given => run surroundings given
  | .repro given => repro surroundings given
  | .watch given => watch surroundings given
  | .collect given => collect given
  | .summarize request => summarize request
  | .cleanup given => cleanup surroundings given

/-- How the program ends. -/
inductive Outcome where
  /-- The words after its name make no sense. -/
  | refused (refusal : Refusal)
  /-- It fails. -/
  | failed (failure : Failure)
  /-- It is done. -/
  | finished (code : Int)
  deriving DecidableEq, Repr

/-- The exit code of an end; a run that the operator stopped has one of its own. -/
def Outcome.exitCode : Outcome → Int
  | refused refusal => refusal.exitCode
  | failed failure => if failure.isInterruption then Watching.interruptedCode else 1
  | finished code => code

/-- What the operator is told of an end: what is wrong with the words, or all that led to a failure,
the outermost first. -/
def Outcome.lines : Outcome → List String
  | refused refusal => [refusal.message, CommandLine.usage].filter fun line => !line.isEmpty
  | failed failure =>
    let title := if failure.isInterruption then "run aborted" else "command failed"
    let causes := (failure.chain.drop 1).map fun cause => "caused by cause=" ++ cause.message
    ((title ++ " error=" ++ failure.message) :: causes).map fun words => (Event.error words).line
  | finished _ => []

/-- The program on the words after its name: how it ends and what it leaves. -/
def execute (surroundings : Surroundings) (words : List String) (session : Session) :
    Outcome × Session :=
  match CommandLine.read surroundings.environment words with
  | .error refusal => (.refused refusal, session)
  | .ok invocation =>
    match (ExceptT.run (perform surroundings invocation)).run session with
    | (.ok code, after) => (.finished code, after)
    | (.error failure, after) => (.failed failure, after)

end Program

end DialectBench

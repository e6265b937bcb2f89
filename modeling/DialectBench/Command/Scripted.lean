import DialectBench.Command.Runner
import DialectBench.Disk.Fixture
import DialectBench.Text.Line

/-! A runner that launches nothing and follows rules instead. -/

namespace DialectBench

/-- What happens when a command is called whose words contain a text. -/
structure Rule where
  /-- The text. -/
  pattern : String := ""
  /-- How often the rule may be used, if there is a limit. -/
  times : Option Nat := none
  /-- What the command leaves in the file tree. -/
  furnishings : List Furnishing := []
  /-- The operator asks to stop meanwhile. -/
  triggers : Bool := false
  /-- The call ends because the operator has asked to stop. -/
  interrupts : Bool := false
  /-- The command is not launched. -/
  refuses : Bool := false
  /-- The exit status. -/
  status : Int := 0
  /-- What the command writes to standard output. -/
  stdout : String := ""
  /-- What the command writes to standard error. -/
  stderr : String := ""
  /-- What a watched command leaves in its log, if it writes one. -/
  log : Option String := some "fake log\n"
  /-- A watched command is silent for too long. -/
  timesOut : Bool := false
  deriving DecidableEq, Repr

/-- A rule and how often it has been used. -/
abbrev UsedRule := Rule × Nat

namespace Rule

/-- A rule applies to a command and may still be used. -/
def applies (rule : Rule) (uses : Nat) (words : String) : Bool :=
  Text.contains words rule.pattern && (rule.times.map fun limit => decide (uses < limit)).getD true

/-- The first rule that applies, and the rules with that use counted. -/
def select (words : String) : List UsedRule → Option Rule × List UsedRule
  | [] => (none, [])
  | (rule, uses) :: rules =>
    if rule.applies uses words then (some rule, (rule, uses + 1) :: rules)
    else
      let (chosen, others) := select words rules
      (chosen, (rule, uses) :: others)

/-- The words of a command in one text. -/
def wordsOf (command : Command) : String :=
  " ".intercalate command.words

/-- The rules with all uses counted that earlier calls made of them, the newest call first. -/
def used (rules : List Rule) (calls : List Call) : List UsedRule :=
  calls.foldr (fun call rules => (select (wordsOf call.command) rules).2)
    (rules.map fun rule => (rule, 0))

/-- The rule for a command after some calls; without one the command succeeds silently. -/
def chosen (rules : List Rule) (calls : List Call) (command : Command) : Rule :=
  ((select (wordsOf command) (used rules calls)).1).getD {}

/-- The world after what a rule does to it. -/
def affect (rule : Rule) (scene : Scene) : Scene :=
  { scene with disk := scene.disk.furnish rule.furnishings,
               interrupted := scene.interrupted || rule.triggers }

/-- Why a rule launches nothing, if it does not. -/
def obstacle? (rule : Rule) (command : Command) : Option Failure :=
  if rule.interrupts then some .interruption
  else if rule.refuses then some (.of (.launchRefused (wordsOf command)))
  else none

/-- Runs a command by a rule. -/
def run (rule : Rule) (command : Command) (scene : Scene) : Aftermath Output :=
  let scene := rule.affect scene
  match rule.obstacle? command with
  | some failure => { outcome := .error failure, scene }
  | none => { outcome := .ok ⟨rule.status, rule.stdout, rule.stderr⟩, scene }

/-- A file tree with a log in it, if the system lets it be written. -/
def logged (disk : Disk) (log : Path) (content : Bytes) : Except OsError Disk := do
  let making := disk.makingAll (log.ancestors.drop 1)
  match making.refusal with
  | some refusal => throw refusal
  | none =>
    let disk := disk.applyAll making.changes
    let change ← disk.writing log content
    return disk.apply change

/-- Runs a command by a rule while its output goes to a log. -/
def stream (rule : Rule) (command : Command) (log : Path) (scene : Scene) : Aftermath Ending :=
  let scene := rule.affect scene
  match rule.obstacle? command with
  | some failure => { outcome := .error failure, scene }
  | none =>
    let ending : Ending := ⟨rule.status, rule.timesOut⟩
    match rule.log.map fun content => logged scene.disk log (Text.encode content) with
    | none => { outcome := .ok ending, scene }
    | some (.ok disk) => { outcome := .ok ending, scene := { scene with disk } }
    | some (.error refusal) => { outcome := .error (.of (.os refusal)), scene }

end Rule

/-- The runner that follows rules. -/
def Runner.scripted (rules : List Rule) : Runner where
  run calls command scene := (Rule.chosen rules calls command).run command scene
  stream calls command log _ scene := (Rule.chosen rules calls command).stream command log scene

end DialectBench

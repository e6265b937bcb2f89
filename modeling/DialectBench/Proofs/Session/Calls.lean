import DialectBench.Proofs.Session.Outcome

/-! The calls that lead from one session to another, and a request to stop on the way. -/

namespace DialectBench

/-- The command was launched and ended with the status of a success. -/
def Reply.succeeded : Reply → Bool
  | output (.ok result) => result.succeeded
  | ending (.ok result) => result.exitCode == 0
  | _ => false

/-- The operator asks to stop while a command runs. -/
def Exchange.Raises (exchange : Exchange) : Prop :=
  exchange.before.interrupted = false ∧ exchange.after.interrupted = true

namespace Exchange

/-- The call watches a command. -/
def IsWatched (exchange : Exchange) : Prop :=
  ∃ command log idle, exchange.call = .stream command log idle

/-- The call watches a command, and something came of it. -/
def Watches (exchange : Exchange) (ending : Except Failure Ending) : Prop :=
  exchange.IsWatched ∧ exchange.reply = .ending ending

/-- The call runs a command to its end. -/
def Runs (exchange : Exchange) : Prop :=
  ∃ command, exchange.call = .run command

/-- A command that is run is not watched. -/
theorem Runs.not_watched {exchange : Exchange} (runs : exchange.Runs) : ¬ exchange.IsWatched := by
  -- One call cannot be of both kinds.
  obtain ⟨command, call⟩ := runs
  rintro ⟨_, _, _, watched⟩
  rw [call] at watched
  cases watched

/-- Calls that are the first ones of commands to be run are not watched. -/
theorem runs_of_prefix {calls : List Exchange} {commands : List Command}
    (made : calls.map Exchange.call <+: commands.map .run) {exchange : Exchange}
    (member : exchange ∈ calls) : exchange.Runs := by
  -- A member of the first calls is a member of all of them, and those are runs.
  obtain ⟨command, -, call⟩ := List.mem_map.mp (made.subset (List.mem_map_of_mem member))
  exact ⟨command, call.symm⟩

end Exchange

/-- What holds of no item up to a mark holds only of items behind it. -/
theorem mem_of_append_eq {α : Type} {holds : α → Prop} {front back earlier later : List α}
    {mark item : α} (same : front ++ mark :: back = earlier ++ item :: later)
    (before : ∀ other ∈ front, ¬ holds other) (at_mark : ¬ holds mark) (here : holds item) :
    mark ∈ earlier := by
  rcases List.append_eq_append_iff.mp same with ⟨between, rfl, rest⟩ | ⟨between, rfl, rest⟩
  · -- The item is the mark or lies behind it.
    cases between with
    | nil =>
      cases rest
      exact absurd here at_mark
    | cons first between =>
      cases rest
      simp
  · -- The item is the mark or lies before it.
    cases between with
    | nil =>
      cases rest
      exact absurd here at_mark
    | cons first between =>
      cases rest
      exact absurd here (before item (by simp))

/-- An item of a joined list is an item of one of the joined ones. -/
theorem flatMap_eq_append_cons {α β : Type} {parts : α → List β} {items : List α}
    {front back : List β} {item : β} (same : items.flatMap parts = front ++ item :: back) :
    ∃ earlier owner later before after, items = earlier ++ owner :: later ∧
      parts owner = before ++ item :: after ∧ front = earlier.flatMap parts ++ before := by
  -- The lists are taken off one by one, and what stands before the item shrinks with them.
  induction items generalizing front with
  | nil => simp at same
  | cons first rest ih =>
    rw [List.flatMap_cons] at same
    rcases List.append_eq_append_iff.mp same with ⟨more, rfl, others⟩ | ⟨more, own, others⟩
    -- The first list ends before the item.
    · obtain ⟨earlier, owner, later, before, after, rfl, mine, rfl⟩ := ih others
      exact ⟨first :: earlier, owner, later, before, after, rfl, mine, by simp⟩
    · cases more with
      -- The first list ends right at the item, which belongs to a later one.
      | nil =>
        have rest : rest.flatMap parts = [] ++ item :: back := others.symm
        obtain ⟨earlier, owner, later, before, after, rfl, mine, none⟩ := ih rest
        refine ⟨first :: earlier, owner, later, before, after, rfl, mine, ?_⟩
        rw [List.flatMap_cons, own, List.append_nil, List.append_assoc, ← none, List.append_nil]
      -- The item lies within the first list.
      | cons head more =>
        obtain ⟨rfl, -⟩ := List.cons.inj others
        exact ⟨[], first, rest, front, more, rfl, own, rfl⟩

/-- A request to stop is made by calls alone, and none of them takes it back. -/
def Carries : Bool → List Exchange → Bool → Prop
  | asked, [], last => asked = last
  | asked, exchange :: rest, last =>
    exchange.before.interrupted = asked ∧ (asked = true → exchange.after.interrupted = true) ∧
      Carries exchange.after.interrupted rest last

/-- A request to stop is carried through two series of calls by way of what is between them. -/
theorem carries_append {asked last : Bool} {first second : List Exchange} :
    Carries asked (first ++ second) last ↔
      ∃ between, Carries asked first between ∧ Carries between second last := by
  -- The first series is taken apart call by call, so its start stays quantified over.
  induction first generalizing asked with
  | nil => simp [Carries]
  | cons exchange rest ih => simp [Carries, ih, and_assoc]

/-- A request that was made before calls holds around each of them. -/
theorem Carries.of_asked {calls : List Exchange} {last : Bool} (carried : Carries true calls last) :
    last = true ∧ ∀ exchange ∈ calls, exchange.before.interrupted = true := by
  induction calls with
  | nil => exact ⟨carried.symm, by simp⟩
  | cons exchange rest ih =>
    -- The first call keeps the request, and so do the others.
    obtain ⟨before, kept, carried⟩ := carried
    rw [kept rfl] at carried
    obtain ⟨same, others⟩ := ih carried
    exact ⟨same, List.forall_mem_cons.mpr ⟨before, others⟩⟩

/-- A request that holds after one of several calls holds after all of them. -/
theorem Carries.of_mem {calls : List Exchange} {asked last : Bool}
    (carried : Carries asked calls last) {exchange : Exchange} (member : exchange ∈ calls)
    (made : exchange.after.interrupted = true) : last = true := by
  -- Behind the call the request was already there, and calls before it do not matter.
  obtain ⟨earlier, later, rfl⟩ := List.append_of_mem member
  obtain ⟨_, _, _, _, rest⟩ := carries_append.mp carried
  rw [made] at rest
  exact rest.of_asked.1

namespace Session

/-- The calls of a session that another one does not have yet, the oldest first. -/
def since (t s : Session) : List Exchange :=
  (t.exchanges.take (t.exchanges.length - s.exchanges.length)).reverse

/-- From one session to another exactly some calls were made, given with the oldest first. -/
structure Leads (s : Session) (calls : List Exchange) (t : Session) : Prop where
  /-- The calls were added to those before. -/
  recorded : t.exchanges = calls.reverse ++ s.exchanges
  /-- A request to stop came from them, or from before them. -/
  carried : Carries s.scene.interrupted calls t.scene.interrupted

/-- No call leads from a session to itself. -/
theorem Leads.refl (s : Session) : s.Leads [] s := ⟨rfl, rfl⟩

/-- Calls follow one another. -/
theorem Leads.trans {s t u : Session} {first second : List Exchange}
    (one : s.Leads first t) (other : t.Leads second u) : s.Leads (first ++ second) u := by
  refine ⟨?_, carries_append.mpr ⟨_, one.carried, other.carried⟩⟩
  rw [other.recorded, one.recorded, List.reverse_append, List.append_assoc]

/-- The calls between two sessions are those that the later one has in addition. -/
theorem Leads.since_eq {s t : Session} {calls : List Exchange} (led : s.Leads calls t) :
    t.since s = calls := by
  -- Exactly the new calls are taken from the front, where the newest stand.
  have length : t.exchanges.length - s.exchanges.length = calls.reverse.length := by
    simp [led.recorded]
  rw [since, length, led.recorded, List.take_left, List.reverse_reverse]

/-- Without calls a request to stop stays as it is. -/
theorem Leads.interrupted_eq {s t : Session} (led : s.Leads [] t) :
    t.scene.interrupted = s.scene.interrupted :=
  led.carried.symm

/-- A request to stop that is made during a call holds in the end. -/
theorem Leads.interrupted_of_raises {s t : Session} {calls : List Exchange} (led : s.Leads calls t)
    {exchange : Exchange} (member : exchange ∈ calls) (raised : exchange.Raises) :
    t.scene.interrupted = true :=
  led.carried.of_mem member raised.2

end Session

namespace Action

variable {α β : Type}

/-- The calls that an action makes, the oldest first. -/
def trace (action : Action α) (s : Session) : List Exchange :=
  (action.after s).since s

/-- A command that is run is one call, made in the world as it is. -/
theorem leads_run (runner : Runner) (command : Command) (s : Session) :
    ∃ exchange, s.Leads [exchange] ((run runner command).after s) ∧
      exchange.call = .run command ∧
      exchange.reply = .output ((run runner command).outcome s) ∧
      exchange.before = s.scene := by
  -- The exchange that is entered is the call, and settling never takes a request back.
  rw [after_run, outcome_run]
  refine ⟨⟨_, _, _, _⟩, ⟨rfl, rfl, ?_, rfl⟩, rfl, rfl, rfl⟩
  intro asked
  simp [settled, asked]

/-- A command that is watched is one call, made in the world as it is. -/
theorem leads_stream (runner : Runner) (command : Command) (log : Path)
    (timing : Watching.Timing) (s : Session) :
    ∃ exchange, s.Leads [exchange] ((stream runner command log timing).after s) ∧
      exchange.call = .stream command log timing.idle ∧
      exchange.reply = .ending ((stream runner command log timing).outcome s) ∧
      exchange.before = s.scene := by
  rw [after_stream, outcome_stream]
  refine ⟨⟨_, _, _, _⟩, ⟨rfl, rfl, ?_, rfl⟩, rfl, rfl, rfl⟩
  intro asked
  simp [settled, asked]

/-- An action is quiet when it is built from steps that call no command. -/
inductive Quiet : {α : Type} → Action α → Prop where
  /-- A value is given back. -/
  | pure {α : Type} (value : α) : Quiet (pure value : Action α)
  /-- The action fails. -/
  | throw {α : Type} (failure : Failure) : Quiet (throw failure : Action α)
  /-- Two quiet actions follow one another. -/
  | bind {α β : Type} {action : Action α} {next : α → Action β} (first : action.Quiet)
    (second : ∀ value, (next value).Quiet) : Quiet (action >>= next)
  /-- A quiet action is attempted. -/
  | attempt {α : Type} {action : Action α} (quiet : action.Quiet) : Quiet (attempt action)
  /-- The file tree is looked at. -/
  | disk : Quiet disk
  /-- The local time is read. -/
  | stamp : Quiet stamp
  /-- The universal time is read. -/
  | universal : Quiet universal
  /-- A request to stop is asked for. -/
  | stopIfAsked : Quiet stopIfAsked
  /-- The file tree is changed. -/
  | perform (change : Change) : Quiet (perform change)
  /-- The operator is told something. -/
  | tell (event : Event) : Quiet (tell event)
  /-- A line is written. -/
  | printLine (line : String) : Quiet (printLine line)

/-- A quiet action calls no command and leaves a request to stop as it is. -/
theorem Quiet.leads {action : Action α} (quiet : action.Quiet) (s : Session) :
    s.Leads [] (action.after s) := by
  -- Every step leaves the calls alone, so only the ways to put actions together are of interest.
  induction quiet generalizing s with
  | pure | throw | disk | stamp | universal => exact .refl s
  | perform | tell | printLine => exact ⟨rfl, rfl⟩
  | stopIfAsked =>
    rw [after_stopIfAsked]
    exact .refl s
  | attempt _ ih =>
    rw [after_attempt]
    exact ih s
  | @bind _ _ action next _ _ first second =>
    rw [after_bind]
    -- The second action begins only when the first one succeeded.
    cases action.outcome s with
    | error failure => exact first s
    | ok value => exact (first s).trans (second value _)

/-- Quiet work takes no time that anyone could read off. -/
theorem Quiet.moment_eq {action : Action α} (quiet : action.Quiet) (s : Session) :
    (action.after s).scene.moment = s.scene.moment := by
  induction quiet generalizing s with
  | pure | throw | disk | stamp | universal | perform | tell | printLine => rfl
  | stopIfAsked => rw [after_stopIfAsked]
  | attempt _ ih =>
    rw [after_attempt]
    exact ih s
  | @bind _ _ action next _ _ first second =>
    rw [after_bind]
    -- The second action begins only when the first one succeeded.
    cases action.outcome s with
    | error failure => exact first s
    | ok value => exact (second value _).trans (first s)

/-- Quiet work after an action adds nothing to its calls. -/
theorem leads_bind_quiet {action : Action α} {next : α → Action β} {s : Session}
    {calls : List Exchange} (led : s.Leads calls (action.after s))
    (quiet : ∀ value, (next value).Quiet) : s.Leads calls ((action >>= next).after s) := by
  rw [after_bind]
  -- Whether or not the quiet work begins, the calls are the same.
  cases action.outcome s with
  | error failure => exact led
  | ok value => simpa using led.trans ((quiet value).leads _)

/-- The calls of an action that succeeds are followed by those of the next one. -/
theorem trace_bind_of_ok {action : Action α} {next : α → Action β} {s : Session} {value : α}
    {early late : List Exchange} (passed : action.outcome s = .ok value)
    (led : s.Leads early (action.after s))
    (goes : (action.after s).Leads late ((next value).after (action.after s))) :
    (action >>= next).trace s = action.trace s ++ (next value).trace (action.after s) := by
  rw [trace, trace, trace, led.since_eq, goes.since_eq, after_bind_of_ok passed]
  exact (led.trans goes).since_eq

/-- The calls of an action that fails are all. -/
theorem trace_bind_of_error {action : Action α} {next : α → Action β} {s : Session}
    {failure : Failure} (failed : action.outcome s = .error failure) :
    (action >>= next).trace s = action.trace s := by
  rw [trace, trace, after_bind_of_error failed]

/-- Taking a result over is quiet. -/
theorem quiet_ofExcept (result : Except Failure α) : (ofExcept result).Quiet := by
  cases result with
  | ok value => exact .pure value
  | error failure => exact .throw failure

/-- Taking over what the system allows is quiet. -/
theorem quiet_allowed (step : Fault) (result : Except OsError α) : (allowed step result).Quiet := by
  cases result with
  | ok value => exact .pure value
  | error refusal => exact .throw _

/-- A query is quiet. -/
theorem quiet_look (query : Disk → α) : (look query).Quiet :=
  .bind .disk fun d => .pure (query d)

/-- Warning the operator is quiet. -/
theorem quiet_warn (words : String) : (warn words).Quiet := .tell _

/-- Changing the file tree several times is quiet. -/
theorem quiet_performAll (changes : List Change) : (performAll changes).Quiet := by
  -- The changes are made one by one, and none of them calls a command.
  induction changes with
  | nil => exact .pure ()
  | cons change rest ih => exact .bind (.perform change) fun _ => ih

/-- Writing lines is quiet. -/
theorem quiet_printLines (lines : List String) : (printLines lines).Quiet := by
  induction lines with
  | nil => exact .pure ()
  | cons line rest ih => exact .bind (.printLine line) fun _ => ih

/-- Doing something quiet for every member of a list is quiet. -/
theorem quiet_forM {items : List α} {action : α → Action PUnit}
    (quiet : ∀ item, (action item).Quiet) : (items.forM action).Quiet := by
  induction items with
  | nil => exact .pure PUnit.unit
  | cons item rest ih => exact .bind (quiet item) fun _ => ih

/-- An action runs commands in turn and goes on only as long as they succeed. -/
def Runs (action : Action α) (commands : List Command) : Prop :=
  ∀ s : Session, ∃ calls, s.Leads calls (action.after s) ∧
    calls.map Exchange.call <+: commands.map .run ∧
    ∀ value, action.outcome s = .ok value →
      calls.map Exchange.call = commands.map .run ∧
        ∀ exchange ∈ calls, exchange.reply.succeeded = true

/-- A quiet action runs no command. -/
theorem Quiet.runs {action : Action α} (quiet : action.Quiet) : action.Runs [] := fun s =>
  ⟨[], quiet.leads s, by simp, fun _ _ => ⟨rfl, by simp⟩⟩

/-- A command is run, and what follows goes on only if it succeeded. -/
theorem runs_run_bind (runner : Runner) (command : Command) {next : Output → Action β}
    (quiet : ∀ output, (next output).Quiet)
    (demanding : ∀ output s value, (next output).outcome s = .ok value →
      output.succeeded = true) :
    Runs (run runner command >>= next) [command] := by
  intro s
  -- The command is the only call, since what follows is quiet.
  obtain ⟨exchange, led, call, reply, -⟩ := leads_run runner command s
  refine ⟨[exchange], leads_bind_quiet led quiet, by simp [call], fun value passed => ?_⟩
  -- Going on demands the success of what came of the command.
  obtain ⟨output, launched, passed⟩ := outcome_bind_eq_ok.mp passed
  have succeeded := demanding output _ value passed
  refine ⟨by simp [call], ?_⟩
  simpa [reply, launched, Reply.succeeded] using succeeded

/-- A command that must succeed is run. -/
theorem runs_runToSuccess (runner : Runner) (command : Command) :
    Runs (runToSuccess runner command) [command] := by
  refine runs_run_bind runner command (fun output => ?_) fun output s value passed => ?_
  · exact (quiet_ofExcept _).bind fun _ => Quiet.pure _
  -- Without success the demand fails, and nothing is given back.
  · obtain ⟨_, checked, _⟩ := outcome_bind_eq_ok.mp passed
    rw [outcome_ofExcept, Output.demandSuccess] at checked
    cases success : output.succeeded with
    | true => rfl
    | false => simp [success] at checked

/-- The commands of one action are followed by those of the next one. -/
theorem Runs.bind {action : Action α} {next : α → Action β} {first second : List Command}
    (one : action.Runs first) (other : ∀ value, (next value).Runs second) :
    (action >>= next).Runs (first ++ second) := by
  intro s
  obtain ⟨calls, led, made, all⟩ := one s
  rw [List.map_append]
  -- The first action stops short, or it ran all its commands and the second one begins.
  cases result : action.outcome s with
  | error failure =>
    refine ⟨calls, by rwa [after_bind_of_error result], made.trans (List.prefix_append _ _), ?_⟩
    intro value passed
    rw [outcome_bind_of_error result] at passed
    cases passed
  | ok value =>
    obtain ⟨more, goes, also, rest⟩ := other value (action.after s)
    obtain ⟨same, succeeded⟩ := all value result
    refine ⟨calls ++ more, by rw [after_bind_of_ok result]; exact led.trans goes, ?_, ?_⟩
    · rw [List.map_append, same]
      exact (List.prefix_append_right_inj _).mpr also
    · intro last passed
      rw [outcome_bind_of_ok result] at passed
      obtain ⟨others, further⟩ := rest last passed
      exact ⟨by rw [List.map_append, same, others],
        List.forall_mem_append.mpr ⟨succeeded, further⟩⟩

/-- With a step around its first action an action runs the same commands. -/
theorem Runs.within_bind {action : Action α} {next : α → Action β} {commands : List Command}
    (runs : (action >>= next).Runs commands) (step : Fault) :
    (Action.within step action >>= next).Runs commands := by
  intro s
  obtain ⟨calls, led, made, all⟩ := runs s
  refine ⟨calls, ?_, made, fun value passed => all value ?_⟩
  -- A named failure is still a failure, in the same session.
  · rw [after_bind] at led
    rw [after_bind, outcome_within, after_within]
    cases result : action.outcome s with
    | error failure =>
      rw [result] at led
      exact led
    | ok output =>
      rw [result] at led
      exact led
  -- A success is not touched by the name.
  · obtain ⟨first, succeeded, passed⟩ := outcome_bind_eq_ok.mp passed
    rw [outcome_within] at succeeded
    rw [after_within] at passed
    cases result : action.outcome s with
    | error failure =>
      rw [result] at succeeded
      cases succeeded
    | ok output =>
      rw [result] at succeeded
      cases succeeded
      rw [outcome_bind_of_ok result]
      exact passed

end Action

end DialectBench

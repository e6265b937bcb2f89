import DialectBench.Proofs.Bench.Opening
import DialectBench.Proofs.Session.Ordinary
import DialectBench.Rerun

/-! The query log of the database is turned off again behind every test that was run with it. -/

namespace DialectBench

namespace Rerun

open Action

/-- A test is found and can be run: nothing but its command and what belongs to the query log is
left of the run. -/
structure Reaches (rerun : Rerun) (s : Session) (root : Path) (target : RerunTarget)
    (command : Command) : Prop where
  /-- The failing tests are not only listed. -/
  runs : rerun.options.listOnly = false
  /-- The command is not only planned. -/
  launches : rerun.options.dryRun = false
  /-- The directory of the results is there. -/
  rooted : runRoot s.scene.disk rerun.lab rerun.options = .ok root
  /-- The selection, the module and the build wrapper are found. -/
  planned : plan s.scene.disk rerun.lab rerun.options (FailingTest.below s.scene.disk root) =
    .ok (target, command)
  /-- The directory of the logs is there or can be made. -/
  prepared : (prepareDirectory rerun.lab.repro).outcome s = .ok ()

/-- The call that runs a test. -/
def watchedCall (rerun : Rerun) (moment : Moment) (target : RerunTarget) (command : Command) :
    Call :=
  .stream command (gradleLog rerun.lab (logStem moment.stamp target.pattern))
    rerun.options.timing.idle

/-- The calls of a run, with the log of the queries turned on, captured and turned off around the
test if it is wanted. -/
def calls (rerun : Rerun) (moment : Moment) (target : RerunTarget) (command : Command) :
    List Call :=
  if rerun.options.captureLog then
    [.run (rerun.switchCommand true), rerun.watchedCall moment target command,
      .run (rerun.logsCommand moment.universal), .run (rerun.switchCommand false)]
  else [rerun.watchedCall moment target command]

/-- What is told about a test that ended with an exit code. -/
def finish (rerun : Rerun) (moment : Moment) (target : RerunTarget) (code : Int) : RerunOutcome :=
  let stem := logStem moment.stamp target.pattern
  .finished code (gradleLog rerun.lab stem)
    (if rerun.options.captureLog then some (queryLog rerun.lab stem) else none)

/-- What comes of a run is decided by what comes of the test alone. -/
def conclusion (rerun : Rerun) (moment : Moment) (target : RerunTarget) :
    Except Failure Ending → Except Failure RerunOutcome
  | .ok ending => .ok (rerun.finish moment target ending.exitCode)
  | .error failure =>
    if failure.isInterruption then .error failure
    else .ok (rerun.finish moment target launchFailureCode)

variable {rerun : Rerun} {s : Session} {target : RerunTarget} {command : Command} {root : Path}

/-! ### The calls around a test -/

/-- Turning the query log on or off is one call, and never fails. -/
theorem leads_switchLog (rerun : Rerun) (enabled : Bool) (s : Session) :
    (∃ exchange, s.Leads [exchange] ((rerun.switchLog enabled).after s) ∧
      exchange.call = .run (rerun.switchCommand enabled)) ∧
      (rerun.switchLog enabled).outcome s = .ok () := by
  -- The call is attempted, so that its failure becomes a warning.
  refine ⟨?_, ?_⟩
  · obtain ⟨exchange, led, call, -⟩ := leads_run rerun.runner (rerun.switchCommand enabled) s
    refine ⟨exchange, leads_bind_quiet ?_ fun result => ?_, call⟩
    -- What is demanded of the output calls no further command.
    · rw [after_attempt]
      exact leads_bind_quiet led fun output => (quiet_ofExcept _).bind fun _ => Quiet.pure _
    · cases result with
      | ok output => exact Quiet.pure ()
      | error failure => exact quiet_warn _
  · rw [switchLog, outcome_bind_of_ok (outcome_attempt _ _)]
    cases (runToSuccess rerun.runner (rerun.switchCommand enabled)).outcome s <;> rfl

/-- Writing the captured queries is quiet. -/
theorem quiet_writeLog (path : Path) (content : Bytes) : (writeLog path content).Quiet := by
  refine (quiet_look _).bind fun result => ?_
  cases result with
  | ok change => exact Quiet.perform change
  | error refusal => exact quiet_warn _

/-- Writing the captured queries never fails. -/
theorem outcome_writeLog (path : Path) (content : Bytes) (s : Session) :
    (writeLog path content).outcome s = .ok () := by
  rw [writeLog, outcome_bind_of_ok (outcome_look _ _)]
  cases s.scene.disk.writing path content <;> rfl

/-- Capturing the queries is one call, and never fails. -/
theorem leads_saveQueries (rerun : Rerun) (since : String) (path : Path) (s : Session) :
    (∃ exchange, s.Leads [exchange] ((rerun.saveQueries since path).after s) ∧
      exchange.call = .run (rerun.logsCommand since)) ∧
      (rerun.saveQueries since path).outcome s = .ok () := by
  -- The call is attempted here too, and what cannot be written is told.
  refine ⟨?_, ?_⟩
  · obtain ⟨exchange, led, call, -⟩ := leads_run rerun.runner (rerun.logsCommand since) s
    rw [← after_attempt] at led
    refine ⟨exchange, leads_bind_quiet led fun result => ?_, call⟩
    cases result with
    | error failure => exact quiet_warn _
    | ok output =>
      refine (quiet_writeLog _ _).bind fun _ => ?_
      split
      · exact quiet_warn _
      · exact Quiet.pure ()
  · rw [saveQueries, outcome_bind_of_ok (outcome_attempt _ _)]
    cases (run rerun.runner (rerun.logsCommand since)).outcome s with
    | error failure => rfl
    | ok output =>
      refine (outcome_bind_of_ok (outcome_writeLog _ _ _) _).trans ?_
      split <;> rfl

/-- Running the test is one call that is watched, and its ending is handed on. -/
theorem leads_watch (rerun : Rerun) (command : Command) (log : Path) (s : Session) :
    ∃ exchange ending, s.Leads [exchange] ((rerun.watch command log).after s) ∧
      exchange.call = .stream command log rerun.options.timing.idle ∧
      exchange.Watches ending ∧ (rerun.watch command log).outcome s = .ok ending := by
  obtain ⟨exchange, led, call, reply, -⟩ :=
    leads_stream rerun.runner command log rerun.options.timing s
  rw [← after_attempt] at led
  exact ⟨exchange, _, led, call, ⟨⟨_, _, _, call⟩, reply⟩, outcome_attempt _ _⟩

/-- With the query log around it a test is the second of four calls. -/
theorem leads_watchCaptured (rerun : Rerun) (command : Command) (log queries : Path) (s : Session) :
    ∃ made ending, s.Leads made ((rerun.watchCaptured command log queries).after s) ∧
      made.map Exchange.call =
        [.run (rerun.switchCommand true), .stream command log rerun.options.timing.idle,
          .run (rerun.logsCommand s.scene.moment.universal), .run (rerun.switchCommand false)] ∧
      (∃ exchange ∈ made, exchange.Watches ending) ∧
      (rerun.watchCaptured command log queries).outcome s = .ok ending := by
  -- The four steps in their order, each in the session that the one before it left.
  obtain ⟨⟨first, ledFirst, callFirst⟩, on⟩ := leads_switchLog rerun true s
  obtain ⟨second, ending, ledSecond, callSecond, watches, ended⟩ :=
    leads_watch rerun command log ((rerun.switchLog true).after s)
  obtain ⟨⟨third, ledThird, callThird⟩, saved⟩ :=
    leads_saveQueries rerun s.scene.moment.universal queries
      ((rerun.watch command log).after ((rerun.switchLog true).after s))
  obtain ⟨⟨fourth, ledFourth, callFourth⟩, off⟩ := leads_switchLog rerun false
    ((rerun.saveQueries s.scene.moment.universal queries).after
      ((rerun.watch command log).after ((rerun.switchLog true).after s)))
  -- No step fails, so each of them works in what the one before it left.
  have universal : Action.universal.outcome s = .ok s.scene.moment.universal := rfl
  have still : Action.universal.after s = s := rfl
  refine ⟨[first] ++ [second] ++ [third] ++ [fourth], ending, ?_, ?_,
    ⟨second, by simp, watches⟩, ?_⟩
  · rw [watchCaptured, after_bind_of_ok universal, still, after_bind_of_ok on,
      after_bind_of_ok ended, after_bind_of_ok saved, after_bind_of_ok off]
    exact ((ledFirst.trans ledSecond).trans ledThird).trans ledFourth
  · simp [callFirst, callSecond, callThird, callFourth]
  · rw [watchCaptured, outcome_bind_of_ok universal, still, outcome_bind_of_ok on,
      outcome_bind_of_ok ended, outcome_bind_of_ok saved, outcome_bind_of_ok off]
    rfl

/-- The exit code of an ending is found without a call. -/
theorem quiet_codeOf (ending : Except Failure Ending) : (codeOf ending).Quiet := by
  cases ending with
  | ok ending => exact (Bench.quiet_describeEnding ending).bind fun _ => Quiet.pure _
  | error failure =>
    by_cases interrupted : failure.isInterruption = true
    · simp only [codeOf, interrupted, if_true]
      exact Quiet.throw _
    · simp only [codeOf, interrupted]
      exact (Quiet.tell _).bind fun _ => Quiet.pure _

/-- Behind a watched test its exit code is told, unless the run was stopped. -/
theorem leads_concluded {watching : Action (Except Failure Ending)} {made : List Exchange}
    {ending : Except Failure Ending} (rerun : Rerun) (moment : Moment) (target : RerunTarget)
    (led : s.Leads made (watching.after s)) (ended : watching.outcome s = .ok ending) :
    s.Leads made ((watching >>= fun ending => codeOf ending >>= fun code =>
      pure (rerun.finish moment target code)).after s) ∧
      (watching >>= fun ending => codeOf ending >>= fun code =>
        pure (rerun.finish moment target code)).outcome s =
        rerun.conclusion moment target ending := by
  -- What follows the test calls no command.
  refine ⟨leads_bind_quiet led fun ending => (quiet_codeOf ending).bind fun _ => Quiet.pure _, ?_⟩
  rw [outcome_bind_of_ok ended]
  cases ending with
  | ok ending =>
    have code : (codeOf (.ok ending)).outcome (watching.after s) = .ok ending.exitCode :=
      outcome_bind_of_ok (Bench.outcome_describeEnding ending _) _
    rw [outcome_bind_of_ok code, outcome_pure, conclusion]
  -- An interruption is handed on, and any other failure becomes an exit code.
  | error failure =>
    by_cases interrupted : failure.isInterruption = true
    · simp [codeOf, conclusion, interrupted]
    · simp only [codeOf, conclusion, interrupted]
      rfl

/-- Once the directory of the logs is there, the calls are made, and the ending of the test decides
what comes of the run. -/
theorem leads_launch (rerun : Rerun) (target : RerunTarget) (command : Command)
    (prepared : (prepareDirectory rerun.lab.repro).outcome s = .ok ()) :
    ∃ made ending, s.Leads made ((rerun.launch target command).after s) ∧
      made.map Exchange.call = rerun.calls s.scene.moment target command ∧
      (∃ exchange ∈ made, exchange.Watches ending) ∧
      (rerun.launch target command).outcome s = rerun.conclusion s.scene.moment target ending := by
  -- Making the directory calls nothing and leaves the time that goes into names.
  have quiet := quiet_prepareDirectory rerun.lab.repro
  have led := quiet.leads s
  have moment := quiet.moment_eq s
  revert led moment
  generalize ready : (prepareDirectory rerun.lab.repro).after s = t
  intro led moment
  have stamped : stamp.outcome t = .ok s.scene.moment.stamp := by rw [outcome_stamp, moment]
  rw [launch, after_bind_of_ok prepared, outcome_bind_of_ok prepared, ready,
    after_bind_of_ok stamped, outcome_bind_of_ok stamped, after_stamp]
  -- The log decides between four calls and one; either way the ending of the test is concluded from.
  by_cases captured : rerun.options.captureLog = true
  · obtain ⟨made, ending, goes, calls, watched, ended⟩ := leads_watchCaptured rerun command
      (gradleLog rerun.lab (logStem s.scene.moment.stamp target.pattern))
      (queryLog rerun.lab (logStem s.scene.moment.stamp target.pattern)) t
    have concluded := leads_concluded rerun s.scene.moment target goes ended
    simp only [finish, captured, if_true] at concluded
    rw [if_pos captured]
    refine ⟨made, ending, led.trans concluded.1, ?_, watched, concluded.2⟩
    rw [calls, Rerun.calls, if_pos captured, watchedCall, moment]
  · obtain ⟨exchange, ending, goes, call, watched, ended⟩ := leads_watch rerun command
      (gradleLog rerun.lab (logStem s.scene.moment.stamp target.pattern)) t
    have concluded := leads_concluded rerun s.scene.moment target goes ended
    simp only [finish, captured] at concluded
    rw [if_neg captured]
    refine ⟨[exchange], ending, led.trans concluded.1, ?_, ⟨exchange, by simp, watched⟩,
      concluded.2⟩
    simp [call, Rerun.calls, captured, watchedCall]

/-! ### Runs that do not get as far as a test -/

/-- A missing directory of results does not look like a stopped run. -/
theorem latestRunRoot_not_interrupted {d : Disk} {directory : Path} {kind : String}
    {failure : Failure} (failed : latestRunRoot d directory kind = .error failure) :
    failure.isInterruption = false := by
  unfold latestRunRoot at failed
  split at failed
  · dsimp only at failed
    -- The directory is there, and only the search for a run in it can fail.
    split at failed
    · cases failed
    · obtain rfl := Except.error.inj failed
      rfl
  · obtain rfl := Except.error.inj failed
    rfl

/-- The last failure of several searches is the first one or that of a search. -/
theorem firstFound_eq_error {first failure : Failure} {searches : List (Except Failure Path)}
    (failed : firstFound first searches = .error failure) :
    failure = first ∨ .error failure ∈ searches := by
  -- Every search that fails takes the place of the failure before it.
  induction searches generalizing first with
  | nil => exact Or.inl (Except.error.inj failed).symm
  | cons search rest ih =>
    cases search with
    | ok path => cases failed
    | error next =>
      rcases ih failed with rfl | member
      · exact Or.inr (by simp)
      · exact Or.inr (List.mem_cons_of_mem _ member)

/-- Results that are not there do not look like a stopped run. -/
theorem runRoot_not_interrupted {d : Disk} {lab : Lab} {options : RerunOptions} {failure : Failure}
    (failed : runRoot d lab options = .error failure) : failure.isInterruption = false := by
  unfold runRoot at failed
  -- A directory that is given only has to be there; otherwise the first search that finds one counts.
  split at failed
  · split at failed
    · cases failed
    · obtain rfl := Except.error.inj failed
      rfl
  · rcases firstFound_eq_error failed with rfl | member
    · rfl
    · obtain ⟨directory, -, search⟩ := List.mem_map.mp member
      exact latestRunRoot_not_interrupted search

/-- A name without a class is all that cannot be taken apart. -/
theorem parseIdentifier_eq_error {identifier : String} {failure : Failure}
    (failed : Selection.parseIdentifier identifier = .error failure) :
    failure = .of (.invalidIdentifier identifier) := by
  unfold Selection.parseIdentifier at failed
  cases parted : Text.splitOnce '#' identifier <;>
    · rw [parted] at failed
      dsimp only at failed
      split at failed
      · exact (Except.error.inj failed).symm
      · cases failed

/-- A position without a test does not look like a stopped run. -/
theorem resolveIndex_not_interrupted {tests : List FailingTest} {overrides : Overrides}
    {position : Nat} {failure : Failure}
    (failed : Selection.resolveIndex tests position overrides = .error failure) :
    failure.isInterruption = false := by
  unfold Selection.resolveIndex at failed
  -- There are no tests, or the position is none of theirs.
  split at failed
  · obtain rfl := Except.error.inj failed
    rfl
  · split at failed
    · obtain rfl := Except.error.inj failed
      rfl
    · split at failed
      · cases failed
      · obtain rfl := Except.error.inj failed
        rfl

/-- A name without a class or a module does not look like a stopped run. -/
theorem resolveIdentifier_not_interrupted {tests : List FailingTest} {overrides : Overrides}
    {text : String} {given : Option String} {failure : Failure}
    (failed : Selection.resolveIdentifier tests text given overrides = .error failure) :
    failure.isInterruption = false := by
  unfold Selection.resolveIdentifier at failed
  cases parsed : Selection.parseIdentifier text with
  | error cause =>
    rw [parsed] at failed
    obtain rfl := Except.error.inj failed
    rw [parseIdentifier_eq_error parsed]
    rfl
  | ok named =>
    rw [parsed] at failed
    dsimp only at failed
    cases named : given.or (Selection.moduleOf? tests named.1) with
    | none =>
      rw [named] at failed
      obtain rfl := Except.error.inj failed
      rfl
    | some name =>
      rw [named] at failed
      cases failed

/-- A selection that finds no test does not look like a stopped run. -/
theorem resolve_not_interrupted {tests : List FailingTest} {overrides : Overrides}
    {selection : Selection} {failure : Failure}
    (failed : selection.resolve tests overrides = .error failure) :
    failure.isInterruption = false := by
  cases selection with
  | index position =>
    have same : Selection.resolveIndex tests position overrides = .error failure := failed
    exact resolveIndex_not_interrupted same
  | identifier text given =>
    have same : Selection.resolveIdentifier tests text given overrides = .error failure := failed
    exact resolveIdentifier_not_interrupted same

/-- A missing build wrapper does not look like a stopped run. -/
theorem gradleWords_not_interrupted {d : Disk} {workspace : Path} {target : RerunTarget}
    {profile : String} {extra : List String} {failure : Failure}
    (failed : target.gradleWords d workspace profile extra = .error failure) :
    failure.isInterruption = false := by
  unfold RerunTarget.gradleWords at failed
  dsimp only at failed
  split at failed
  · cases failed
  · obtain rfl := Except.error.inj failed
    rfl

/-- A command without a program does not look like a stopped run. -/
theorem wrapCommand_not_interrupted {lab : Lab} {options : RerunOptions} {gradle : List String}
    {failure : Failure} (failed : wrapCommand lab options gradle = .error failure) :
    failure.isInterruption = false := by
  unfold wrapCommand at failed
  split at failed
  · obtain rfl := Except.error.inj failed
    rfl
  · split at failed <;> cases failed

/-- A series of two steps fails in the first one, or in the second one behind the first. -/
theorem bind_eq_error {α β : Type} {first : Except Failure α} {second : α → Except Failure β}
    {failure : Failure} (failed : first >>= second = .error failure) :
    first = .error failure ∨ ∃ value, first = .ok value ∧ second value = .error failure := by
  cases first with
  | error cause =>
    have same : (.error cause : Except Failure β) = .error failure := failed
    obtain rfl := Except.error.inj same
    exact Or.inl rfl
  | ok value => exact Or.inr ⟨value, rfl, failed⟩

/-- A command that cannot be planned does not look like a stopped run. -/
theorem plan_not_interrupted {d : Disk} {lab : Lab} {options : RerunOptions}
    {tests : List FailingTest} {failure : Failure}
    (failed : plan d lab options tests = .error failure) : failure.isInterruption = false := by
  unfold plan at failed
  split at failed
  · obtain rfl := Except.error.inj failed
    rfl
  -- The command is put together from the test, the build wrapper and the wrapping words, in this
  -- order.
  · rcases bind_eq_error failed with unselected | ⟨target, -, failed⟩
    · exact resolve_not_interrupted unselected
    · rcases bind_eq_error failed with unwrapped | ⟨gradle, -, failed⟩
      · exact gradleWords_not_interrupted unwrapped
      · rcases bind_eq_error failed with empty | ⟨command, -, failed⟩
        · exact wrapCommand_not_interrupted empty
        · cases failed

/-! ### Every run -/

/-- Without a test that can be run there is no call, and nothing looks like a stopped run. -/
theorem leads_execute_of_not_reaches
    (fails : ¬ ∃ root target command, rerun.Reaches s root target command) :
    s.Leads [] (rerun.execute.after s) ∧
      ∀ failure, rerun.execute.outcome s = .error failure → failure.isInterruption = false := by
  have looked : Action.disk.outcome s = .ok s.scene.disk := rfl
  have still : Action.disk.after s = s := rfl
  rw [execute, outcome_bind_of_ok looked, after_bind_of_ok looked, still]
  -- The run goes through its steps until the first one that fails, and none of them calls a command.
  cases rooted : runRoot s.scene.disk rerun.lab rerun.options with
  | error failure =>
    rw [outcome_bind_of_error (outcome_ofExcept _ _), after_bind_of_error (outcome_ofExcept _ _),
      after_ofExcept]
    refine ⟨.refl s, ?_⟩
    rintro _ ⟨⟩
    exact runRoot_not_interrupted rooted
  | ok root =>
    rw [outcome_bind_of_ok (outcome_ofExcept _ _), after_bind_of_ok (outcome_ofExcept _ _),
      after_ofExcept]
    by_cases listed : rerun.options.listOnly = true
    · rw [if_pos listed]
      exact ⟨.refl s, fun _ impossible => nomatch impossible⟩
    · rw [if_neg listed]
      cases planned : plan s.scene.disk rerun.lab rerun.options
          (FailingTest.below s.scene.disk root) with
      | error failure =>
        rw [outcome_bind_of_error (outcome_ofExcept _ _),
          after_bind_of_error (outcome_ofExcept _ _), after_ofExcept]
        refine ⟨.refl s, ?_⟩
        rintro _ ⟨⟩
        exact plan_not_interrupted planned
      | ok found =>
        obtain ⟨target, command⟩ := found
        rw [outcome_bind_of_ok (outcome_ofExcept _ _), after_bind_of_ok (outcome_ofExcept _ _),
          after_ofExcept]
        dsimp only
        by_cases dry : rerun.options.dryRun = true
        · rw [if_pos dry]
          exact ⟨.refl s, fun _ impossible => nomatch impossible⟩
        · rw [if_neg dry]
          -- With everything at hand the test could be reached, so the directory of the logs cannot be
          -- made.
          cases prepared : (prepareDirectory rerun.lab.repro).outcome s with
          | ok made =>
            exact absurd ⟨root, target, command, ⟨by simpa using listed, by simpa using dry,
              rooted, planned, prepared⟩⟩ fails
          | error failure =>
            rw [launch, outcome_bind_of_error prepared, after_bind_of_error prepared]
            refine ⟨(quiet_prepareDirectory _).leads s, ?_⟩
            rintro _ ⟨⟩
            exact ordinary_prepareDirectory _ s _ prepared

/-- A run that gets as far as its test is the launch of it. -/
theorem Reaches.execute_eq (reaches : rerun.Reaches s root target command) :
    rerun.execute.after s = (rerun.launch target command).after s ∧
      rerun.execute.outcome s = (rerun.launch target command).outcome s := by
  have looked : Action.disk.outcome s = .ok s.scene.disk := rfl
  have still : Action.disk.after s = s := rfl
  -- The run is a launch behind steps that only look at the tree.
  have runs : ¬ rerun.options.listOnly = true := by simp [reaches.runs]
  have launches : ¬ rerun.options.dryRun = true := by simp [reaches.launches]
  rw [execute, outcome_bind_of_ok looked, after_bind_of_ok looked, still, reaches.rooted,
    outcome_bind_of_ok (outcome_ofExcept _ _), after_bind_of_ok (outcome_ofExcept _ _),
    after_ofExcept, if_neg runs, reaches.planned, outcome_bind_of_ok (outcome_ofExcept _ _),
    after_bind_of_ok (outcome_ofExcept _ _), after_ofExcept]
  dsimp only
  rw [if_neg launches]
  exact ⟨rfl, rfl⟩

/-- A test of MySQL that is run again directly in a small lab, and no command can be launched. -/
def refused : Rerun where
  lab := .sample
  options := {
    runRoot := some "runs"
    resultsType := .mysql
    listOnly := false
    selection := some (.identifier "org.example.LockTest#testLock" (some "hibernate-core"))
    overrides := {}
    profile := "mysql_ci"
    gradleArguments := []
    rdbms := "mysql"
    captureLog := true
    connection := ⟨"127.0.0.1", 4000, "root", none, "mysql:8"⟩
    venue := .host
    image := "eclipse-temurin:21-jdk"
    dryRun := false
    timing := .ofSeconds 60 none }
  runner := {
    run _ command scene := ⟨.error (.of (.launchRefused command.program)), scene, [], []⟩
    stream _ command _ _ scene := ⟨.error (.of (.launchRefused command.program)), scene, [], []⟩ }

/-- The small lab with a build wrapper and a directory for the logs of single tests. -/
def refusedSession : Session where
  scene := ⟨{ Disk.sample with entries := Disk.sample.entries ++
      [(["ws", "gradlew"], .file [] true 0), (["repro"], .directory 0)] }, false,
    ⟨"20250101-000000", "2025-01-01T00:00:00Z"⟩⟩

end Rerun

end DialectBench

import DialectBench.Proofs.Collection.House
import DialectBench.Proofs.Disk.Contents
import DialectBench.Proofs.Rerun.QueryLog
import DialectBench.Proofs.Session.Entered
import DialectBench.Proofs.Text.Slug

/-! Whatever a test is called, the two logs of running it again are different entries of the directory of such
logs, and nothing else is written. -/

namespace DialectBench

/-- A path is that of an entry of a directory. -/
structure Path.IsEntryOf (p directory : Path) (name : String) : Prop where
  /-- It ends with the name of the entry. -/
  ends : p.fileName? = some name
  /-- Its parent has the components of the directory. -/
  parent : ∃ outer, p.parent? = some outer ∧ outer.components = directory.components
  /-- In every file tree it stands for the entry of that name in the directory. -/
  lands : ∀ (d : Disk) (place : Location), d.Leads directory place →
    d.resolve p false = .ok ⟨place ++ [name], d.find? (place ++ [name])⟩
  /-- A file that is written under it is that entry, unless a link bears the name. -/
  files : ∀ (d : Disk) (place goal : Location), d.Leads directory place →
    (∀ target, d.view (place ++ [name]) ≠ some (.link target)) →
    d.filePlace p = .ok goal → goal = place ++ [name]

/-- A plain name behind a directory is the path of an entry of it. -/
theorem Path.isEntryOf_div (directory : Path) {name : String} (plain : IsPlain name) :
    (directory / name).IsEntryOf directory name := by
  -- Its last part is the name, and what is in front of that the directory.
  have behind := components_behind directory plain
  have ends : (directory / name).fileName? = some name := by
    rw [fileName?_eq, behind, List.getLast?_concat]
    rfl
  obtain ⟨outer, parent⟩ := exists_parent ends
  refine ⟨ends, ⟨outer, parent, ?_⟩, ?_, ?_⟩
  · rw [components_parent parent, behind, List.dropLast_concat]
  · intro d place leads
    exact leads.resolve_div plain (by simp)
  · intro d place goal leads solid writable
    exact leads.filePlace_div plain solid writable

namespace Rerun

open Action

variable {rerun : Rerun} {s : Session} {lab : Lab} {stamp pattern : String}

/-! ### The names of the logs -/

/-- Where the logs under a stem are. -/
structure LogsApart (lab : Lab) (stem : String) : Prop where
  /-- The log of the build is an entry of the directory of such logs. -/
  gradle : (gradleLog lab stem).IsEntryOf lab.repro (stem ++ ".gradle.log")
  /-- So is the log of the queries. -/
  query : (queryLog lab stem).IsEntryOf lab.repro (stem ++ ".tidb.log")
  /-- They are two different paths. -/
  apart : (gradleLog lab stem).components ≠ (queryLog lab stem).components

/-- No name of a log leads out of a directory: the name of the test has no slash in it any more. -/
theorem isPlain_logName (slashless : '/' ∉ stamp.toList) (pattern suffix : String)
    (ending : '/' ∉ suffix.toList) : IsPlain (logStem stamp pattern ++ suffix) := by
  have clean : '/' ∉ (Text.slug pattern).toList := by
    intro member
    exact absurd (Text.inFileName_of_mem_slug member) (by decide)
  have dash : '-' ∈ (logStem stamp pattern ++ suffix).toList := by simp [logStem]
  refine isPlain_of_mem dash (by decide) ?_
  simp [logStem, slashless, clean, ending]

/-- The logs of a test are two entries of the directory of such logs. -/
theorem logsApart (lab : Lab) (slashless : '/' ∉ stamp.toList) (pattern : String) :
    LogsApart lab (logStem stamp pattern) := by
  have gradle := isPlain_logName slashless pattern ".gradle.log" (by decide)
  have query := isPlain_logName slashless pattern ".tidb.log" (by decide)
  refine ⟨lab.repro.isEntryOf_div gradle, lab.repro.isEntryOf_div query, ?_⟩
  intro same
  rw [gradleLog, queryLog, Path.components_behind _ gradle, Path.components_behind _ query] at same
  have names := Component.name.inj (List.singleton_inj.mp (List.append_cancel_left same))
  -- Behind the stem they share, the names go on differently.
  have letters := congrArg String.toList names
  rw [String.toList_append, String.toList_append] at letters
  exact absurd (List.append_cancel_left letters) (by decide)

/-! ### What a run writes -/

/-- What a run may do to the file tree. -/
inductive Records (directory log : Path) : Change → Prop where
  /-- It takes over the tree that a command left. -/
  | adopted (disk : Disk) : Records directory log (.adopt disk)
  /-- It makes a directory or one above it. -/
  | made {d : Disk} {above : Path} {change : Change} (listed : above ∈ directory.ancestors)
      (making : d.makingDirectory above = .ok change) : Records directory log change
  /-- It writes a log. -/
  | written {d : Disk} {content : Bytes} {change : Change}
      (writing : d.writing log content = .ok change) : Records directory log change

variable {directory log : Path}

/-- Turning the query log on or off writes nothing. -/
theorem enters_switchLog (rerun : Rerun) (enabled : Bool) (s : Session) :
    s.Enters (Records directory log) ((rerun.switchLog enabled).after s) := by
  refine enters_bind ?_ fun result _ => ?_
  · rw [after_attempt]
    exact enters_runToSuccess .adopted _ _ s
  · cases result with
    | ok output => exact .of_eq rfl
    | error failure => exact .of_eq rfl

/-- The queries are written to their log. -/
theorem enters_writeLog (log : Path) (content : Bytes) (s : Session) :
    s.Enters (Records directory log) ((writeLog log content).after s) := by
  refine enters_bind (.of_eq rfl) fun result looked => ?_
  cases result with
  | ok change => exact .single (.written (Except.ok.inj looked)) rfl
  | error refusal => exact .of_eq rfl

/-- Capturing the queries writes their log alone. -/
theorem enters_saveQueries (rerun : Rerun) (since : String) (log : Path) (s : Session) :
    s.Enters (Records directory log) ((rerun.saveQueries since log).after s) := by
  refine enters_bind ?_ fun result _ => ?_
  · rw [after_attempt]
    exact enters_run .adopted _ _ s
  · cases result with
    | error failure => exact .of_eq rfl
    | ok output =>
      refine enters_bind (enters_writeLog log _ _) fun _ _ => .of_eq ?_
      split <;> rfl

/-- Running the test writes nothing but what the test itself does. -/
theorem enters_watch (rerun : Rerun) (command : Command) (streamed : Path) (s : Session) :
    s.Enters (Records directory log) ((rerun.watch command streamed).after s) := by
  rw [watch, after_attempt]
  exact enters_stream .adopted _ _ _ _ s

/-- With the query log around it a test has the queries written to their log. -/
theorem enters_watchCaptured (rerun : Rerun) (command : Command) (streamed log : Path)
    (s : Session) :
    s.Enters (Records directory log) ((rerun.watchCaptured command streamed log).after s) := by
  refine enters_bind (.of_eq rfl) fun since _ => ?_
  refine enters_bind (enters_switchLog rerun true _) fun _ _ => ?_
  refine enters_bind (enters_watch rerun command streamed _) fun outcome _ => ?_
  refine enters_bind (enters_saveQueries rerun since log _) fun _ _ => ?_
  exact enters_bind (enters_switchLog rerun false _) fun _ _ => .of_eq rfl

/-- Telling the exit code of an ending writes nothing. -/
theorem enters_codeOf (ending : Except Failure Ending) (s : Session) :
    s.Enters (Records directory log) ((codeOf ending).after s) := by
  cases ending with
  | ok ending =>
    refine enters_bind (.of_eq ?_) fun _ _ => .of_eq rfl
    rw [Bench.describeEnding]
    split
    · rfl
    · split <;> rfl
  | error failure =>
    rw [codeOf]
    split
    · exact .of_eq rfl
    · exact .of_eq rfl

/-- Running a test again makes the directory of the logs and writes the log of the queries. -/
theorem enters_launch (rerun : Rerun) (target : RerunTarget) (command : Command) (s : Session) :
    s.Enters (Records rerun.lab.repro
        (queryLog rerun.lab (logStem s.scene.moment.stamp target.pattern)))
      ((rerun.launch target command).after s) := by
  have moment := (quiet_prepareDirectory rerun.lab.repro).moment_eq s
  -- First the directory of the logs is made, then the moment is read, and then the test is run.
  refine enters_bind ?_ fun _ _ => ?_
  · rw [after_prepareDirectory]
    refine enters_performAll (fun change member => ?_) s
    obtain ⟨d, above, listed, making⟩ := Disk.exists_making_of_mem member
    exact .made listed making
  · refine enters_bind (.of_eq rfl) fun stamped read => ?_
    -- Making the directory takes no time, so the stamp is that of the session before it.
    rw [outcome_stamp, moment] at read
    obtain rfl := Except.ok.inj read
    dsimp only
    split
    · refine enters_bind (enters_watchCaptured rerun command _ _ _) fun ending _ => ?_
      exact enters_bind (enters_codeOf ending _) fun _ _ => .of_eq rfl
    · refine enters_bind (enters_watch rerun command _ _) fun ending _ => ?_
      exact enters_bind (enters_codeOf ending _) fun _ _ => .of_eq rfl

/-- Where a run leaves its logs. -/
structure KeepsLogs (rerun : Rerun) (s : Session) (stem : String) : Prop where
  /-- A test is watched, and what it prints goes to the log of the build. -/
  streams : (∃ exchange ∈ rerun.execute.trace s, exchange.IsWatched) ∧
    ∀ exchange ∈ rerun.execute.trace s, ∀ command log idle,
      exchange.call = .stream command log idle → log = gradleLog rerun.lab stem
  /-- Of all files only the log of the queries is written, and directories are made for it alone. -/
  enters : s.Enters (Records rerun.lab.repro (queryLog rerun.lab stem)) (rerun.execute.after s)
  /-- These are the logs that the run tells of. -/
  tells : ∀ code log queries, rerun.execute.outcome s = .ok (.finished code log queries) →
    log = gradleLog rerun.lab stem ∧ ∀ path ∈ queries, path = queryLog rerun.lab stem

/-- Whatever is told about a test, it is told with the logs of the run. -/
theorem eq_finish_of_conclusion {moment : Moment} {target : RerunTarget}
    {ending : Except Failure Ending} {told : RerunOutcome}
    (concluded : rerun.conclusion moment target ending = .ok told) :
    ∃ code, told = rerun.finish moment target code := by
  cases ending with
  | ok ending => exact ⟨_, (Except.ok.inj concluded).symm⟩
  | error failure =>
    rw [conclusion] at concluded
    split at concluded
    · cases concluded
    · exact ⟨_, (Except.ok.inj concluded).symm⟩

/-- A run that gets as far as its test keeps its logs under one stem. -/
theorem Reaches.keepsLogs {root : Path} {target : RerunTarget} {command : Command}
    (reaches : rerun.Reaches s root target command) :
    rerun.KeepsLogs s (logStem s.scene.moment.stamp target.pattern) := by
  obtain ⟨after, outcome⟩ := reaches.execute_eq
  obtain ⟨made, ending, led, calls, ⟨watched, among, watches⟩, concluded⟩ :=
    leads_launch rerun target command reaches.prepared
  have trace : rerun.execute.trace s = made := by
    rw [Action.trace, after]
    exact led.since_eq
  refine ⟨⟨⟨watched, trace ▸ among, watches.1⟩, ?_⟩, ?_, ?_⟩
  · intro exchange member other log idle call
    rw [trace] at member
    have listed : Call.stream other log idle ∈ rerun.calls s.scene.moment target command := by
      rw [← calls, ← call]
      exact List.mem_map_of_mem member
    -- Among the calls around a test only that of the test itself is watched.
    unfold Rerun.calls at listed
    split at listed
    · simp only [List.mem_cons, reduceCtorEq, List.not_mem_nil, false_or, or_false] at listed
      exact (Call.stream.inj listed).2.1
    · exact (Call.stream.inj (List.mem_singleton.mp listed)).2.1
  · rw [after]
    exact enters_launch rerun target command s
  · intro code log queries finished
    rw [outcome, concluded] at finished
    obtain ⟨own, told⟩ := eq_finish_of_conclusion finished
    obtain ⟨-, rfl, rfl⟩ := RerunOutcome.finished.inj told
    refine ⟨rfl, fun path member => ?_⟩
    split at member
    · exact (Option.mem_some_iff.mp member).symm
    · cases member

/-- The logs of a test stay in their directory. The name of the test becomes a part of a file name that keeps the
characters of file names and has one dash for each maximal run of others, so nothing in it can lead elsewhere:
behind a time that is written without a slash, both logs are entries of the directory, and different ones. A
run that gets as far as its test keeps its logs there and writes no other file; any other run calls no command,
and has nothing to log. -/
theorem logs_stay_in_directory (rerun : Rerun) (s : Session) :
    Text.Sanitizes Text.slug ∧
      ('/' ∉ s.scene.moment.stamp.toList → ∀ target : RerunTarget,
        LogsApart rerun.lab (logStem s.scene.moment.stamp target.pattern)) ∧
      (∀ root target command, rerun.Reaches s root target command →
        rerun.KeepsLogs s (logStem s.scene.moment.stamp target.pattern)) ∧
      ((∃ root target command, rerun.Reaches s root target command) ∨
        rerun.execute.trace s = []) := by
  refine ⟨Text.sanitizes_slug, ?_, ?_, ?_⟩
  · intro slashless target
    exact logsApart rerun.lab slashless target.pattern
  · intro root target command reaches
    exact reaches.keepsLogs
  · -- A run either gets as far as its test, or calls nothing.
    rcases em (∃ root target command, rerun.Reaches s root target command) with reaches | fails
    · exact .inl reaches
    · exact .inr (leads_execute_of_not_reaches fails).1.since_eq

/-- A test whose name would lead out of any directory, were it taken as a path. -/
def straying : RerunTarget where
  module := "hibernate-core"
  task := ":hibernate-core:test"
  classname := "org.example.LockTest"
  method := some "../../[é]\n/lock"
  provenance := .manual "org.example.LockTest#../../[é]\n/lock"

/-- That test is run again in the small lab. -/
def strayingRerun : Rerun :=
  { refused with options := { refused.options with
      selection := some (.identifier "org.example.LockTest#../../[é]\n/lock" (some straying.module)) } }

/-- What is left of that name leads nowhere. -/
theorem straying_logs_stay :
    '/' ∉ refusedSession.scene.moment.stamp.toList ∧
      (∃ command, strayingRerun.Reaches refusedSession "runs" straying command) ∧
      gradleLog strayingRerun.lab (logStem "20250101-000000" straying.pattern) =
        "repro/20250101-000000-org.example.LockTest...-..-lock.gradle.log" ∧
      LogsApart strayingRerun.lab (logStem "20250101-000000" straying.pattern) ∧
      strayingRerun.KeepsLogs refusedSession (logStem "20250101-000000" straying.pattern) := by
  have slashless : '/' ∉ refusedSession.scene.moment.stamp.toList := by decide
  have reaches : strayingRerun.Reaches refusedSession "runs" straying
      { program := "ws/gradlew",
        arguments := [":hibernate-core:test", "-Pdb=mysql_ci", "--stacktrace", "--tests",
          "org.example.LockTest.../../[é]\n/lock"],
        directory := some "ws", bindings := [("RDBMS", "mysql")] } :=
    { runs := rfl
      launches := rfl
      rooted := by decide +kernel
      planned := by decide +kernel
      prepared := by decide +kernel }
  obtain ⟨-, apart, keeps, -⟩ := logs_stay_in_directory strayingRerun refusedSession
  exact ⟨slashless, ⟨_, reaches⟩, by decide +kernel, apart slashless straying, keeps _ _ _ reaches⟩

end Rerun

end DialectBench

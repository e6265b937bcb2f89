import DialectBench.Proofs.Bench.Course
import Mathlib.Data.List.Basic

/-! The calls of a target by how far it came: what it calls before its database is started, while
its database is there, and when its container is removed. -/

namespace DialectBench

namespace Bench

/-- The commands of a stage, except for those of a database that is there. -/
def commandsOf (bench : Bench) (target : Target) : Stage → List Command
  | .clearCaches => bench.cleanCommands
  | .adaptWorkspace => bench.patchCommands
  | .setPreset => target.preset.toList.map bench.presetCommand
  | _ => []

/-- The commands of a target before anything is started for it. -/
def openingCommands (bench : Bench) (target : Target) : List Command :=
  bench.cleanCommands ++ target.preset.toList.map bench.presetCommand

/-- The stages before anything is started run the opening commands. -/
theorem flatMap_commandsOf_openingStages (bench : Bench) (target : Target) :
    target.openingStages.flatMap (bench.commandsOf target) = bench.openingCommands target := by
  -- Only the preset makes a difference, and the check runs nothing.
  cases own : target.preset <;> simp [Target.openingStages, openingCommands, commandsOf, own]

end Bench

/-- A stage that does not work with a database that is there performs its commands. -/
theorem Visit.Fits.performs {bench : Bench} {target : Target} {visit : Visit}
    (fits : visit.Fits bench target) (unstarted : visit.stage ≠ .startDatabase)
    (untested : visit.stage ≠ .launchTests) :
    visit.Performs (bench.commandsOf target visit.stage) visit.calls := by
  have does := fits.does
  have idle : visit.calls = [] → visit.Performs [] visit.calls := by
    intro none
    rw [none]
    exact ⟨by simp, fun _ => ⟨rfl, by simp⟩⟩
  unfold Visit.Does at does
  -- Cleaning and patching perform commands of their own, and the other stages none.
  cases named : visit.stage with
  | clearCaches | adaptWorkspace | setPreset => simpa [named, Bench.commandsOf] using does
  | checkDialect =>
    rw [named] at does
    exact idle does.1
  | collect | summarize =>
    rw [named] at does
    exact idle does
  | startDatabase => exact absurd named unstarted
  | launchTests => exact absurd named untested

section Commands

variable {bench : Bench} {target : Target} {stages : List Stage} {s t : Session}
  {visits : List Visit}

/-- Stages that do not work with a database that is there run commands of theirs in turn. -/
theorem Course.performs {outcome : Except Failure TargetFate}
    (course : Course bench target stages s visits outcome t)
    (unstarted : .startDatabase ∉ stages) (untested : .launchTests ∉ stages) :
    (visits.flatMap Visit.calls).map Exchange.call <+:
      (stages.flatMap (bench.commandsOf target)).map .run := by
  -- A passed stage has run all its commands, so the next ones stand right behind them.
  induction course with
  | completed => simp
  | passed fits named _ passed _ ih =>
    have performs := fits.performs (fun same => unstarted (by simp [← named, same]))
      (fun same => untested (by simp [← named, same]))
    rw [named] at performs
    have rest := ih (fun member => unstarted (List.mem_cons_of_mem _ member))
      (fun member => untested (List.mem_cons_of_mem _ member))
    rw [List.flatMap_cons, List.map_append, (performs.2 passed).1, List.flatMap_cons,
      List.map_append]
    exact (List.prefix_append_right_inj _).mpr rest
  -- The stage that fails may have run some of its commands, and no later stage runs any.
  | abandoned fits named | stopped fits named =>
    have performs := fits.performs (fun same => unstarted (by simp [← named, same]))
      (fun same => untested (by simp [← named, same]))
    rw [named] at performs
    rw [List.flatMap_cons, List.flatMap_nil, List.append_nil, List.flatMap_cons, List.map_append]
    exact performs.1.trans (List.prefix_append _ _)

/-- Stages that are passed without a database run all their commands, and with success. -/
theorem Passes.performs (passes : Passes bench target stages s visits t)
    (unstarted : .startDatabase ∉ stages) (untested : .launchTests ∉ stages) :
    (visits.flatMap Visit.calls).map Exchange.call =
        (stages.flatMap (bench.commandsOf target)).map .run ∧
      ∀ exchange ∈ visits.flatMap Visit.calls, exchange.reply.succeeded = true := by
  obtain ⟨all, none⟩ := passes.all
  -- Every visit is passed, so it has run all commands of its stage.
  have performs : ∀ visit ∈ visits,
      visit.calls.map Exchange.call = (bench.commandsOf target visit.stage).map .run ∧
        ∀ exchange ∈ visit.calls, exchange.reply.succeeded = true := by
    intro visit member
    have there : visit.stage ∈ stages := all ▸ List.mem_map_of_mem member
    exact ((passes.fits member).performs (fun same => unstarted (same ▸ there))
      (fun same => untested (same ▸ there))).2 (none visit member)
  constructor
  · rw [← all, List.map_flatMap, List.flatMap_map, List.map_flatMap]
    exact List.flatMap_congr fun visit member => (performs visit member).1
  · intro exchange member
    obtain ⟨visit, there, member⟩ := List.mem_flatMap.mp member
    exact (performs visit there).2 exchange member

end Commands

/-- What a target calls up to the removal of a leftover container: it has run its opening commands
with success, and the configuration fits its database when the container is removed. -/
structure Opening (bench : Bench) (target : Target) (opening : List Exchange)
    (removal : Exchange) : Prop where
  /-- The opening commands were run in turn. -/
  opened : opening.map Exchange.call = (bench.openingCommands target).map .run
  /-- All of them succeeded. -/
  succeeded : ∀ exchange ∈ opening, exchange.reply.succeeded = true
  /-- A leftover container of the database is removed. -/
  removes : removal.call = .run (Bench.removeCommand target.container)
  /-- The configuration fits the database. -/
  checked : ∃ settings,
    Dialect.checked removal.before.disk bench.lab.workspace target.backend = .ok settings

/-- What a target calls before its tests. -/
inductive Prepared (bench : Bench) (target : Target) : List Exchange → Prop where
  /-- The database was started in a new container, and the container is there. -/
  | intro {opening : List Exchange} {removal start inspection : Exchange}
      (opens : Opening bench target opening removal)
      (starts : start.call = .run (bench.startCommand target))
      (started : start.reply.succeeded = true)
      (inspects : inspection.call = .run (Bench.inspectCommand target))
      (inspected : inspection.reply.succeeded = true) :
    Prepared bench target (opening ++ [removal, start, inspection])

/-- What a target calls after its tests. -/
inductive Cleared (target : Target) (ending : Except Failure Ending) : List Exchange → Prop where
  /-- The container of the tests is removed if it may still be there, and then that of the
  database. -/
  | intro {dropped : List Exchange} {teardown : Exchange}
      (drops : dropped.map Exchange.call =
        if Bench.isStranded ending then [.run (Bench.removeCommand target.testContainer)] else [])
      (removed : teardown.call = .run (Bench.removeCommand target.container)) :
    Cleared target ending (dropped ++ [teardown])

/-- The calls of a target, by how far it came. -/
inductive Journal (bench : Bench) (target : Target) : List Exchange → Prop where
  /-- Nothing was started. -/
  | unstarted {opening : List Exchange}
      (opened : opening.map Exchange.call <+: (bench.openingCommands target).map .run) :
    Journal bench target opening
  /-- The database was to be started, but the tests were not run. -/
  | untested {opening rest : List Exchange} {removal teardown : Exchange}
      (opens : Opening bench target opening removal)
      (made : rest.map Exchange.call <+:
        [.run (bench.startCommand target), .run (Bench.inspectCommand target)])
      (removed : teardown.call = .run (Bench.removeCommand target.container)) :
    Journal bench target (opening ++ removal :: (rest ++ [teardown]))
  /-- The tests were run. -/
  | tested {before after : List Exchange} {stream : Exchange} {ending : Except Failure Ending}
      {stamp : String} (prepared : Prepared bench target before)
      (streams : stream.call = .stream (bench.testCommand target)
        (target.logPath bench.lab.logs stamp) bench.options.timing.idle)
      (ended : stream.reply = .ending ending) (cleared : Cleared target ending after) :
    Journal bench target (before ++ stream :: after)

section Watched

variable {bench : Bench} {target : Target}

/-- What is called before a leftover container is removed are opening commands. -/
theorem Opening.opened_prefix {opening : List Exchange} {removal : Exchange}
    (opens : Opening bench target opening removal) :
    opening.map Exchange.call <+: (bench.openingCommands target).map .run :=
  opens.opened ▸ List.prefix_rfl

/-- Before the tests nothing is watched. -/
theorem Prepared.runs {calls : List Exchange} (prepared : Prepared bench target calls) :
    ∀ exchange ∈ calls, exchange.Runs := by
  cases prepared with
  | intro opens starts _ inspects =>
    simp only [List.forall_mem_append, List.forall_mem_cons]
    exact ⟨fun _ => Exchange.runs_of_prefix opens.opened_prefix, ⟨_, opens.removes⟩,
      ⟨_, starts⟩, ⟨_, inspects⟩, by simp⟩

/-- The container of the tests is removed only if it may still be there. -/
theorem removes_of_drops {ending : Except Failure Ending} {dropped : List Exchange}
    (drops : dropped.map Exchange.call =
      if Bench.isStranded ending then [.run (Bench.removeCommand target.testContainer)] else [])
    {exchange : Exchange} (member : exchange ∈ dropped) :
    Bench.isStranded ending = true ∧
      exchange.call = .run (Bench.removeCommand target.testContainer) := by
  have there := drops ▸ List.mem_map_of_mem member
  -- The list of removals has a member only in one of the cases.
  split at there
  next stranded => exact ⟨stranded, List.mem_singleton.mp there⟩
  next => cases there

/-- After the tests nothing is watched. -/
theorem Cleared.runs {ending : Except Failure Ending} {calls : List Exchange}
    (cleared : Cleared target ending calls) : ∀ exchange ∈ calls, exchange.Runs := by
  cases cleared with
  | intro drops removed =>
    simp only [List.forall_mem_append, List.forall_mem_cons]
    exact ⟨fun _ member => ⟨_, (removes_of_drops drops member).2⟩, ⟨_, removed⟩, by simp⟩

/-- The only call of a target that is watched runs its tests: before it everything was prepared, and
after it the containers are removed. -/
theorem Journal.watched {calls before after : List Exchange} {stream : Exchange}
    (journal : Journal bench target calls) (split : calls = before ++ stream :: after)
    (watched : stream.IsWatched) :
    Prepared bench target before ∧
      (∃ stamp, stream.call = .stream (bench.testCommand target)
        (target.logPath bench.lab.logs stamp) bench.options.timing.idle) ∧
      ∃ ending, stream.reply = .ending ending ∧ Cleared target ending after := by
  -- Calls that run commands cannot be the watched one.
  have apart : ∀ others : List Exchange, (∀ exchange ∈ others, exchange.Runs) → stream ∉ others :=
    fun others runs member => (runs stream member).not_watched watched
  -- Only in a journal with tests is there a watched call, and then the split is at that call.
  cases journal with
  | unstarted opened =>
    exact absurd (by simp [split]) (apart _ fun _ => Exchange.runs_of_prefix opened)
  | @untested opening rest removal teardown opens made removed =>
    have others : rest.map Exchange.call <+:
        [bench.startCommand target, Bench.inspectCommand target].map .run := made
    have runs : ∀ exchange ∈ opening ++ removal :: (rest ++ [teardown]), exchange.Runs := by
      simp only [List.forall_mem_append, List.forall_mem_cons]
      exact ⟨fun _ => Exchange.runs_of_prefix opens.opened_prefix, ⟨_, opens.removes⟩,
        fun _ => Exchange.runs_of_prefix others, ⟨_, removed⟩, by simp⟩
    exact absurd (by simp [split]) (apart _ runs)
  | @tested front back mark ending stamp prepared streams ended cleared =>
    obtain ⟨rfl, rfl, rfl⟩ := (List.append_cons_inj_of_notMem (apart _ prepared.runs)
      (apart _ cleared.runs)).mp split
    exact ⟨prepared, ⟨stamp, streams⟩, ending, ended, cleared⟩

/-- Only one call of a target is watched. -/
theorem Journal.watched_unique {calls : List Exchange} {one other : Exchange}
    (journal : Journal bench target calls) (there : one ∈ calls) (watched : one.IsWatched)
    (also : other ∈ calls) (sees : other.IsWatched) : one = other := by
  obtain ⟨before, after, rfl⟩ := List.append_of_mem there
  obtain ⟨prepared, -, _, -, cleared⟩ := journal.watched rfl watched
  -- The other call is before, at or behind the first one.
  rcases List.mem_append.mp also with early | late
  · exact absurd sees (prepared.runs other early).not_watched
  · rcases List.mem_cons.mp late with rfl | late
    · rfl
    · exact absurd sees (cleared.runs other late).not_watched

/-- After a watched call the containers are removed as what came of it demands. -/
theorem Journal.cleared {calls before after : List Exchange} {stream : Exchange}
    {ending : Except Failure Ending} (journal : Journal bench target calls)
    (split : calls = before ++ stream :: after) (watches : stream.Watches ending) :
    Cleared target ending after := by
  obtain ⟨-, -, result, ended, cleared⟩ := journal.watched split watches.1
  -- What came of the call is known twice, so it is the same.
  have same := ended.symm.trans watches.2
  cases same
  exact cleared

end Watched

section Drive

variable {bench : Bench} {target : Target} {s t u : Session} {visits : List Visit}

/-- Behind the opening stages the configuration fits the database of the target. -/
theorem Passes.checked (passes : Passes bench target target.openingStages s visits u) :
    ∃ settings, Dialect.checked u.scene.disk bench.lab.workspace target.backend = .ok settings := by
  -- The dialect is checked last, and checking it leaves the session alone.
  obtain ⟨_, later, between, -, -, checks⟩ := passes.split
  obtain ⟨visit, -, fits, named, -, passed, rfl⟩ := checks.single
  obtain ⟨same, decides⟩ := fits.checks named
  rw [passed] at decides
  rw [same]
  cases result : Dialect.checked visit.before.scene.disk bench.lab.workspace target.backend with
  | ok settings => exact ⟨settings, rfl⟩
  | error failure => simp [result, failureOf] at decides

/-- Behind the opening stages a leftover container is removed in a world whose configuration fits. -/
theorem Passes.opening (passes : Passes bench target target.openingStages s visits u)
    {removal : Exchange} (removes : removal.call = .run (Bench.removeCommand target.container))
    (found : removal.before = u.scene) :
    Opening bench target (visits.flatMap Visit.calls) removal := by
  -- No database was there during the opening stages, so they have run their commands in turn.
  obtain ⟨opened, succeeded⟩ := passes.performs (by simp [Target.openingStages])
    (by simp [Target.openingStages])
  rw [Bench.flatMap_commandsOf_openingStages] at opened
  exact ⟨opened, succeeded, removes, found ▸ passes.checked⟩

/-- What is done in the end is a removal if the database was to be started, and else nothing. -/
theorem Bench.leads_teardown (bench : Bench) (target : Target) (visits : List Visit) (t : Session) :
    ∃ calls, t.Leads calls (bench.teardown target visits t) ∧
      calls.map Exchange.call = if visits.any fun visit => visit.stage == .startDatabase then
        [.run (Bench.removeCommand target.container)] else [] := by
  unfold Bench.teardown
  -- The removal is one call, whatever comes of it.
  split
  · obtain ⟨removal, led, removes⟩ := bench.leads_dropContainer target.container t
    exact ⟨[removal], led, by simp [removes]⟩
  · exact ⟨[], .refl t, rfl⟩

/-- Behind the tests of a target no calls are left. -/
theorem Course.launch {outcome : Except Failure TargetFate}
    (course : Course bench target [.launchTests, .collect, .summarize] s visits outcome t) :
    ∃ visit rest, visits = visit :: rest ∧ visit.Tests bench target ∧
      rest.flatMap Visit.calls = [] := by
  -- The tests are visited first, and the stages behind them make no call.
  cases course with
  | @passed visit _ _ _ _ rest _ fits named _ _ course =>
    have made := course.performs (by simp) (by simp)
    exact ⟨visit, rest, rfl, fits.tests named, by simpa [Bench.commandsOf] using made⟩
  | @abandoned visit _ _ _ _ fits named | @stopped visit _ _ _ _ fits named =>
    exact ⟨visit, [], rfl, fits.tests named, rfl⟩

/-- Behind the opening stages the database is started, and the tests follow if that is passed. -/
theorem Course.start {outcome : Except Failure TargetFate} (course : Course bench target
      [.startDatabase, .launchTests, .collect, .summarize] s visits outcome t) :
    ∃ visit rest, visits = visit :: rest ∧ visit.stage = .startDatabase ∧ visit.before = s ∧
      visit.Starts bench target ∧ (rest = [] ∨ visit.failure = none ∧
        Course bench target [.launchTests, .collect, .summarize] visit.after rest outcome t) := by
  -- The start is visited first, and only a start that is passed is followed by others.
  cases course with
  | @passed visit _ _ _ _ rest _ fits named began passed course =>
    exact ⟨visit, rest, rfl, named, began, fits.starts named, .inr ⟨passed, course⟩⟩
  | @abandoned visit _ _ _ _ fits named began | @stopped visit _ _ _ _ fits named began =>
    exact ⟨visit, [], rfl, named, began, fits.starts named, .inl rfl⟩

/-- A target that stops at one of its opening stages runs opening commands only. -/
theorem Course.opening {outcome : Except Failure TargetFate}
    (course : Course bench target target.openingStages s visits outcome t) :
    (visits.flatMap Visit.calls).map Exchange.call <+:
      (bench.openingCommands target).map .run := by
  have opened := course.performs (by simp [Target.openingStages]) (by simp [Target.openingStages])
  rwa [Bench.flatMap_commandsOf_openingStages] at opened

/-- A target whose database was not to be started runs opening commands only. -/
theorem Course.unstarted {outcome : Except Failure TargetFate}
    (course : Course bench target target.stages s visits outcome t)
    (idle : ∀ visit ∈ visits, visit.stage ≠ .startDatabase) :
    (visits.flatMap Visit.calls).map Exchange.call <+:
      (bench.openingCommands target).map .run := by
  -- Behind the opening stages the start of the database would be visited.
  obtain ⟨course, -⟩ | ⟨earlier, later, u, rfl, -, course⟩ := course.split
  · exact course.opening
  · obtain ⟨visit, rest, rfl, named, -⟩ := course.start
    exact absurd named (idle visit (by simp))

/-- A target that is given up at one of its opening stages has visited no other ones. -/
theorem Course.idle_of_abandoned {outcome : Except Failure TargetFate}
    (course : Course bench target target.stages s visits outcome t) {stage : Stage}
    {reason : String} (abandoned : outcome = .ok (.abandoned stage reason))
    (early : stage ∈ target.openingStages) :
    ∀ visit ∈ visits, visit.stage ≠ .startDatabase := by
  -- No opening stage is one of the stages behind them.
  have opening : ∀ {other : Stage}, other ∈ target.openingStages →
      other ∉ [Stage.startDatabase, .launchTests, .collect, .summarize] := by
    intro other member late
    simp [Target.openingStages] at member late
    rcases late with rfl | rfl | rfl | rfl <;> simp at member
  intro visit member
  -- A course behind the opening would give the target up at a later stage.
  obtain ⟨course, -⟩ | ⟨earlier, later, u, rfl, -, course⟩ := course.split
  · have there := course.stages_prefix.subset (List.mem_map_of_mem member)
    intro same
    exact opening there (by simp [same])
  · exact absurd (course.stage_mem abandoned) (opening early)

/-- A target that goes through its stages, with what is done in the end, makes the calls of a
journal. -/
theorem Course.journal {outcome : Except Failure TargetFate}
    (course : Course bench target target.stages s visits outcome t) {last : List Exchange}
    (ends : last.map Exchange.call = if visits.any fun visit => visit.stage == .startDatabase then
        [.run (Bench.removeCommand target.container)] else []) :
    Journal bench target (visits.flatMap Visit.calls ++ last) := by
  obtain ⟨course, -⟩ | ⟨earlier, later, u, rfl, passes, course⟩ := course.split
  · -- No database was to be started, so nothing is removed.
    have idle : (visits.any fun visit => visit.stage == .startDatabase) = false := by
      rw [List.any_eq_false]
      intro visit member
      have there := course.stages_prefix.subset (List.mem_map_of_mem member)
      have other : visit.stage ≠ .startDatabase := fun same =>
        absurd (same ▸ there) (by simp [Target.openingStages])
      simpa using other
    have none : last = [] := by simpa [idle] using ends
    rw [none, List.append_nil]
    exact .unstarted course.opening
  · -- The start of the database comes next, so its container is removed in the end.
    obtain ⟨visit, rest, rfl, named, began, starts, goes⟩ := course.start
    obtain ⟨removal, made, calls, removes, found, performs⟩ := starts
    obtain ⟨teardown, rfl, removed⟩ : ∃ teardown, last = [teardown] ∧
        teardown.call = .run (Bench.removeCommand target.container) := by
      simpa [named] using ends
    have opens := passes.opening removes (began ▸ found)
    -- A start that fails is followed by the removal, and one that is passed by the tests.
    obtain rfl | ⟨passed, course⟩ := goes
    · rw [List.flatMap_append, List.flatMap_singleton, calls, List.append_assoc]
      exact .untested opens performs.1 removed
    · obtain ⟨tests, rest, rfl, launches, none⟩ := course.launch
      obtain ⟨stream, ending, dropped, streamed, streams, ended, drops, -⟩ := launches
      obtain ⟨same, succeeded⟩ := performs.2 passed
      obtain ⟨start, inspection, rfl, starts, inspects⟩ : ∃ start inspection,
          made = [start, inspection] ∧ start.call = .run (bench.startCommand target) ∧
            inspection.call = .run (Bench.inspectCommand target) := by
        simpa [List.map_eq_cons_iff] using same
      -- The calls are put together anew, with the watched call in the middle.
      have whole : (earlier ++ visit :: tests :: rest).flatMap Visit.calls ++ [teardown] =
          (earlier.flatMap Visit.calls ++ [removal, start, inspection]) ++
            stream :: (dropped ++ [teardown]) := by
        simp [calls, streamed, none]
      rw [whole]
      exact .tested (.intro opens starts (succeeded start (by simp)) inspects
        (succeeded inspection (by simp))) streams ended (.intro drops removed)

end Drive

end DialectBench

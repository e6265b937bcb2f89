import DialectBench.Proofs.Bench.Opening

/-! No container outlives the target it was started for, whatever the commands of a comparison
do. -/

namespace DialectBench

namespace Exchange

/-- The call runs the script that starts databases. -/
def StartsDatabase (exchange : Exchange) : Prop :=
  exchange.call.command.program = "./docker_db.sh"

/-- The call removes a container. -/
def Removes (exchange : Exchange) (container : String) : Prop :=
  exchange.call.command.program = docker ∧
    exchange.call.command.arguments = ["rm", "-f", container]

/-- The command that removes a container does so. -/
theorem removes_of_call {exchange : Exchange} {container : String}
    (call : exchange.call = .run (Bench.removeCommand container)) : exchange.Removes container := by
  simp [Removes, call, Call.command, Bench.removeCommand]

/-- A call that removes a container starts no database. -/
theorem Removes.not_starts {exchange : Exchange} {container : String}
    (removes : exchange.Removes container) : ¬ exchange.StartsDatabase := by
  simp [StartsDatabase, removes.1, docker]

end Exchange

/-- A watched command may leave its container behind: it was not seen to end, was silent for too
long, or ended with the exit code of one that was. -/
def LeavesContainer (ending : Except Failure Ending) : Prop :=
  ∀ result, ending = .ok result →
    result.timedOut = true ∨ result.exitCode = 124 ∨ result.exitCode = 130

/-- The container of the tests is removed when it may be left behind. -/
theorem isStranded_iff (ending : Except Failure Ending) :
    Bench.isStranded ending = true ↔ LeavesContainer ending := by
  -- A command that was not seen to end may always have left something behind.
  cases ending <;>
    simp [Bench.isStranded, LeavesContainer, Watching.idleCode, Watching.interruptedCode, or_assoc]

/-- The calls for a target keep to the rules for its containers. -/
structure TearsDown (target : Target) (calls : List Exchange) : Prop where
  /-- A database is started only behind the removal of its container, and that is removed last. -/
  started : ∀ earlier start later, calls = earlier ++ start :: later → start.StartsDatabase →
    (∃ removal ∈ earlier, removal.Removes target.container) ∧
      ∃ last, calls.getLast? = some last ∧ last.Removes target.container
  /-- The container of the tests is removed at once if it may be left behind. -/
  stranded : ∀ earlier stream later ending, calls = earlier ++ stream :: later →
    stream.Watches ending → LeavesContainer ending →
      ∃ runner database, later = [runner, database] ∧ runner.Removes target.testContainer ∧
        database.Removes target.container
  /-- Without such tests only the container of the database is removed. -/
  gone : ∀ earlier stream later ending, calls = earlier ++ stream :: later →
    stream.Watches ending → ¬ LeavesContainer ending →
      ∃ database, later = [database] ∧ database.Removes target.container
  /-- The container of the tests is removed in no other case. -/
  spared : ∀ removal ∈ calls, removal.Removes target.testContainer →
    ∃ stream ∈ calls, ∃ ending, stream.Watches ending ∧ LeavesContainer ending

/-- No call removes a container. -/
def RemovesNothing (calls : List Exchange) : Prop :=
  ∀ exchange ∈ calls, ∀ container, ¬ exchange.Removes container

/-- A leg keeps to the rules for containers. No container is removed for a target that does not come
to its database, above all if it is given up before, and nothing is started or removed for the sake
of anything but a target. -/
def Leg.TearsDown (bench : Bench) (leg : Leg) : Prop :=
  match leg.part with
  | .trying target _ => DialectBench.TearsDown target leg.calls ∧
      ((∀ visit ∈ leg.visits bench target, visit.stage ≠ .startDatabase) →
        RemovesNothing leg.calls) ∧
      ∀ stage ∈ target.openingStages, ∀ reason,
        leg.outcome = .ok [⟨target.identifier, .abandoned stage reason⟩] →
          RemovesNothing leg.calls
  | _ => RemovesNothing leg.calls ∧ ∀ exchange ∈ leg.calls, ¬ exchange.StartsDatabase

namespace Exchange

/-- The call runs a command that neither starts a database nor removes a container. -/
structure Harmless (exchange : Exchange) : Prop where
  /-- It runs a command to its end. -/
  runs : exchange.Runs
  /-- It starts no database. -/
  not_starts : ¬ exchange.StartsDatabase
  /-- It removes no container. -/
  not_removes : ∀ container, ¬ exchange.Removes container

/-- A command that is neither of the two is harmless. -/
theorem harmless_of_call {exchange : Exchange} {command : Command}
    (call : exchange.call = .run command) (other : command.program ≠ "./docker_db.sh")
    (keeps : command.program = docker → command.arguments.head? ≠ some "rm") : exchange.Harmless := by
  refine ⟨⟨command, call⟩, ?_, fun container removes => ?_⟩
  · simpa [StartsDatabase, call, Call.command] using other
  -- A removal would be a command of the container tool, and its first word would say so.
  · obtain ⟨program, arguments⟩ := removes
    rw [call] at program arguments
    exact keeps program (by simp [Call.command] at arguments; simp [arguments])

end Exchange

namespace Bench

variable {bench : Bench} {target : Target} {exchange : Exchange}

/-- Cleaning the caches and patching the configuration are harmless. -/
theorem harmless_of_opening {opening : List Exchange}
    (opened : opening.map Exchange.call <+: (bench.openingCommands target).map .run)
    (member : exchange ∈ opening) : exchange.Harmless := by
  obtain ⟨command, there, call⟩ :=
    List.mem_map.mp (opened.subset (List.mem_map_of_mem member))
  unfold openingCommands cleanCommands at there
  -- Cleaning is done by the container tool in a container of its own, and the preset by a script.
  rcases List.mem_append.mp there with cleans | patches
  · split at cleans
    · cases cleans
    · rw [List.mem_singleton.mp cleans] at call
      exact Exchange.harmless_of_call call.symm (by simp [cleanCommand, docker])
        (by simp [cleanCommand])
  · obtain ⟨preset, -, rfl⟩ := List.mem_map.mp patches
    exact Exchange.harmless_of_call call.symm (by simp [presetCommand, scriptCommand])
      (by simp [presetCommand, scriptCommand, docker])

/-- Asking for a container is harmless. -/
theorem harmless_of_inspect (call : exchange.call = .run (inspectCommand target)) :
    exchange.Harmless :=
  Exchange.harmless_of_call call (by simp [inspectCommand, docker]) (by simp [inspectCommand])

/-- Patching the workspace is harmless. -/
theorem harmless_of_patch {calls : List Exchange}
    (made : calls.map Exchange.call <+: bench.patchCommands.map .run) (member : exchange ∈ calls) :
    exchange.Harmless := by
  obtain ⟨command, there, call⟩ := List.mem_map.mp (made.subset (List.mem_map_of_mem member))
  unfold patchCommands at there
  split at there
  · cases there
  · rw [List.mem_singleton.mp there] at call
    exact Exchange.harmless_of_call call.symm (by simp [patchCommand, scriptCommand])
      (by simp [patchCommand, scriptCommand, docker])

/-- Asking for the container service is harmless. -/
theorem harmless_of_info (call : exchange.call = .run infoCommand) : exchange.Harmless :=
  Exchange.harmless_of_call call (by simp [infoCommand, docker]) (by simp [infoCommand])

/-- Starting a database removes no container. -/
theorem not_removes_of_start (call : exchange.call = .run (bench.startCommand target))
    (container : String) : ¬ exchange.Removes container := by
  simp [Exchange.Removes, call, Call.command, startCommand, docker]

/-- Running the tests removes no container. -/
theorem not_removes_of_stream {log : Path} {idle : Nat}
    (call : exchange.call = .stream (bench.testCommand target) log idle) (container : String) :
    ¬ exchange.Removes container := by
  simp [Exchange.Removes, call, Call.command, testCommand, Target.testArguments]

end Bench

/-- A call that removes one container removes no other one. -/
theorem Exchange.Removes.unique {exchange : Exchange} {one other : String}
    (first : exchange.Removes one) (second : exchange.Removes other) : one = other := by
  have same := first.2.symm.trans second.2
  simpa using same

section Journals

variable {bench : Bench} {target : Target}

/-- Before a leftover container is removed the calls of a target are harmless. -/
theorem Opening.harmless {opening : List Exchange} {removal : Exchange}
    (opens : Opening bench target opening removal) :
    ∀ exchange ∈ opening, exchange.Harmless := fun _ =>
  Bench.harmless_of_opening opens.opened_prefix

/-- In a journal a database is started only behind the removal of its container, and that is removed
last. -/
theorem Journal.started {calls earlier later : List Exchange} {start : Exchange}
    (journal : Journal bench target calls) (split : calls = earlier ++ start :: later)
    (starts : start.StartsDatabase) :
    (∃ removal ∈ earlier, removal.Removes target.container) ∧
      ∃ last, calls.getLast? = some last ∧ last.Removes target.container := by
  -- Before the removal nothing is started, so a start lies behind it.
  have behind : ∀ {opening back : List Exchange} {removal : Exchange},
      Opening bench target opening removal → calls = opening ++ removal :: back →
        ∃ removal ∈ earlier, removal.Removes target.container := by
    intro opening back removal opens same
    have removes := Exchange.removes_of_call opens.removes
    exact ⟨removal, mem_of_append_eq (same.symm.trans split)
      (fun other member => (opens.harmless other member).not_starts) removes.not_starts starts,
      removes⟩
  -- Wherever a database may have been started, the removal of its container is the last call.
  cases journal with
  | unstarted opened =>
    exact absurd starts (Bench.harmless_of_opening opened (by simp [split])).not_starts
  | @untested opening rest removal teardown opens made removed =>
    refine ⟨behind opens rfl, teardown, ?_, Exchange.removes_of_call removed⟩
    rw [← List.cons_append, ← List.append_assoc, List.getLast?_concat]
  | tested prepared _ _ cleared =>
    obtain ⟨opens, -, -, -, -⟩ := prepared
    obtain ⟨-, removed⟩ := cleared
    refine ⟨behind opens (List.append_assoc _ _ _), _, ?_, Exchange.removes_of_call removed⟩
    rw [← List.cons_append, ← List.append_assoc, List.getLast?_concat]

/-- In a journal the container of the tests is removed only if it may be left behind. -/
theorem Journal.spared {calls : List Exchange} (journal : Journal bench target calls)
    (apart : target.container ≠ target.testContainer) {removal : Exchange}
    (member : removal ∈ calls) (removes : removal.Removes target.testContainer) :
    ∃ stream ∈ calls, ∃ ending, stream.Watches ending ∧ LeavesContainer ending := by
  -- A call that removes the container of the database does not remove that of the tests.
  have keeps : removal.call ≠ .run (Bench.removeCommand target.container) := fun call =>
    apart ((Exchange.removes_of_call call).unique removes)
  -- Every other call of a journal is of another kind, or removes another container.
  cases journal with
  | unstarted opened =>
    exact absurd removes ((Bench.harmless_of_opening opened member).not_removes _)
  | @untested opening rest _ teardown opens made removed =>
    simp only [List.mem_append, List.mem_cons, List.not_mem_nil, or_false] at member
    rcases member with there | rfl | there | rfl
    · exact absurd removes ((opens.harmless _ there).not_removes _)
    · exact absurd opens.removes keeps
    · have call := made.subset (List.mem_map_of_mem there)
      rcases List.mem_pair.mp call with call | call
      · exact absurd removes (Bench.not_removes_of_start call _)
      · exact absurd removes ((Bench.harmless_of_inspect call).not_removes _)
    · exact absurd removed keeps
  | @tested _ _ stream ending _ prepared streams ended cleared =>
    refine ⟨stream, by simp, ending, ⟨⟨_, _, _, streams⟩, ended⟩, ?_⟩
    obtain ⟨opens, starts, -, inspects, -⟩ := prepared
    obtain ⟨drops, removed⟩ := cleared
    simp only [List.mem_append, List.mem_cons, List.not_mem_nil, or_false] at member
    -- Of the calls around the tests only the one right behind them can remove their container.
    rcases member with (there | rfl | rfl | rfl) | rfl | there | rfl
    · exact absurd removes ((opens.harmless _ there).not_removes _)
    · exact absurd opens.removes keeps
    · exact absurd removes (Bench.not_removes_of_start starts _)
    · exact absurd removes ((Bench.harmless_of_inspect inspects).not_removes _)
    · exact absurd removes (Bench.not_removes_of_stream streams _)
    · exact (isStranded_iff ending).mp (removes_of_drops drops there).1
    · exact absurd removed keeps

/-- A journal keeps to the rules for containers. -/
theorem Journal.tearsDown {calls : List Exchange} (journal : Journal bench target calls)
    (apart : target.container ≠ target.testContainer) : TearsDown target calls where
  started _ _ _ split starts := journal.started split starts
  stranded earlier stream later ending split watches leaves := by
    obtain ⟨drops, removed⟩ := journal.cleared split watches
    rw [if_pos ((isStranded_iff ending).mpr leaves)] at drops
    obtain ⟨runner, rfl, call⟩ := List.map_eq_singleton_iff.mp drops
    exact ⟨runner, _, rfl, Exchange.removes_of_call call, Exchange.removes_of_call removed⟩
  gone earlier stream later ending split watches stays := by
    obtain ⟨drops, removed⟩ := journal.cleared split watches
    rw [if_neg (fun left => stays ((isStranded_iff ending).mp left)), List.map_eq_nil_iff] at drops
    exact ⟨_, by rw [drops, List.nil_append], Exchange.removes_of_call removed⟩
  spared _ member removes := journal.spared apart member removes

end Journals

/-- Every leg of a comparison keeps to the rules for containers. -/
theorem Leg.Fits.tearsDown {bench : Bench} {leg : Leg} (fits : leg.Fits bench)
    (apart : ∀ target follows, leg.part = .trying target follows →
      target.container ≠ target.testContainer) : leg.TearsDown bench := by
  unfold Leg.TearsDown
  -- Only a leg that tries a target deals with containers.
  cases part : leg.part with
  | opening =>
    have harmless : ∀ exchange ∈ leg.calls, exchange.Harmless := fun exchange member =>
      Bench.harmless_of_info
        (List.mem_singleton.mp ((fits.opens part).1.subset (List.mem_map_of_mem member)))
    exact ⟨fun exchange member => (harmless exchange member).not_removes,
      fun exchange member => (harmless exchange member).not_starts⟩
  | patching plan =>
    have harmless : ∀ exchange ∈ leg.calls, exchange.Harmless := fun exchange member =>
      Bench.harmless_of_patch (fits.patches part).performs.1 member
    exact ⟨fun exchange member => (harmless exchange member).not_removes,
      fun exchange member => (harmless exchange member).not_starts⟩
  | trying target follows =>
    have tries := fits.tries part
    have keeps : (∀ visit ∈ leg.visits bench target, visit.stage ≠ .startDatabase) →
        RemovesNothing leg.calls := fun idle exchange member =>
      (Bench.harmless_of_opening (tries.unstarted idle) member).not_removes
    refine ⟨tries.journal.tearsDown (apart target follows part), keeps, ?_⟩
    intro stage early reason reported
    exact keeps (tries.idle_of_abandoned reported early)

/-- The calls of a comparison are those of its legs in turn, and each of them keeps to the rules for
containers: whatever the commands do, what is started for a target is removed before anything is
called for another one. -/
theorem containers_torn_down (bench : Bench) (s : Session)
    (apart : ∀ target ∈ bench.planned, target.container ≠ target.testContainer) :
    bench.execute.trace s = (bench.legs s).flatMap Leg.calls ∧
      (bench.legs s).map Leg.part <+: bench.parts ∧
      ∀ leg ∈ bench.legs s, leg.TearsDown bench := by
  refine ⟨(bench.leads_execute s).since_eq, bench.parts_prefix s, fun leg member => ?_⟩
  exact (Bench.fits_of_mem member).tearsDown fun target follows part =>
    apart target (Bench.mem_planned member part)

/-- A comparison of all targets in which no database can be started. -/
def Bench.downed : Bench where
  lab := .sample
  options := { timing := .ofSeconds 60 none }
  runner := .scripted [{ pattern := "docker_db.sh", refuses := true }]

/-- Also where no database can be started the containers are removed. -/
theorem downed_containers_torn_down :
    (∀ target ∈ Bench.downed.planned, target.container ≠ target.testContainer) ∧
      ∀ leg ∈ Bench.downed.legs .sample, leg.TearsDown Bench.downed := by
  have apart : ∀ target ∈ Bench.downed.planned, target.container ≠ target.testContainer := by
    decide
  exact ⟨apart, (containers_torn_down Bench.downed .sample apart).2.2⟩

end DialectBench

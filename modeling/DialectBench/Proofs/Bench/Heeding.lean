import DialectBench.Proofs.Bench.BestEffort
import DialectBench.Proofs.Bench.Teardown

/-! A command that was interrupted is the last one of a comparison, but for the removals of the
containers of its target. -/

namespace DialectBench

/-- The command was not seen to its end because the operator stopped it. -/
def Reply.interrupted : Reply → Bool
  | output (.error failure) | ending (.error failure) => failure.isInterruption
  | _ => false

/-- The reason why there is no result is an interruption. -/
def Stops {α : Type} (outcome : Except Failure α) : Prop :=
  ∃ failure, outcome = .error failure ∧ failure.isInterruption = true

namespace Action

variable {α β : Type}

/-- An action heeds interruptions: a call that is interrupted is the last one, and the action fails
with an interruption. -/
def Heeds (action : Action α) : Prop :=
  ∀ s : Session, ∃ calls, s.Leads calls (action.after s) ∧
    ∀ front exchange back, calls = front ++ exchange :: back → exchange.reply.interrupted = true →
      back = [] ∧ Stops (action.outcome s)

/-- Quiet work has no call that could be interrupted. -/
theorem Quiet.heeds {action : Action α} (quiet : action.Quiet) : action.Heeds := fun s =>
  ⟨[], quiet.leads s, fun _ _ _ split => by simp at split⟩

/-- Running a command heeds its interruption. -/
theorem heeds_run (runner : Runner) (command : Command) : (run runner command).Heeds := by
  intro s
  obtain ⟨only, led, -, reply, -⟩ := leads_run runner command s
  refine ⟨[only], led, fun front exchange back split interrupted => ?_⟩
  -- The only call is the one that was interrupted, and its reply is what comes of the action.
  obtain ⟨rfl, same⟩ | ⟨_, _, rest⟩ := List.append_eq_cons_iff.mp split.symm
  · obtain ⟨rfl, rfl⟩ := List.cons.inj same
    rw [reply] at interrupted
    cases result : (run runner command).outcome s with
    | ok output =>
      rw [result] at interrupted
      cases interrupted
    | error failure =>
      rw [result] at interrupted
      exact ⟨rfl, failure, rfl, interrupted⟩
  · simp at rest

/-- Two actions that heed interruptions do so in turn. -/
theorem Heeds.bind {action : Action α} {next : α → Action β} (one : action.Heeds)
    (other : ∀ value, (next value).Heeds) : (action >>= next).Heeds := by
  intro s
  obtain ⟨calls, led, heeds⟩ := one s
  cases result : action.outcome s with
  | error failure =>
    refine ⟨calls, by rwa [after_bind_of_error result], fun front exchange back split interrupted => ?_⟩
    obtain ⟨last, stops⟩ := heeds front exchange back split interrupted
    rw [result] at stops
    obtain ⟨other, same, interruption⟩ := stops
    cases same
    exact ⟨last, failure, outcome_bind_of_error result _, interruption⟩
  | ok value =>
    obtain ⟨more, goes, heeded⟩ := other value (action.after s)
    refine ⟨calls ++ more, by rw [after_bind_of_ok result]; exact led.trans goes, ?_⟩
    intro front exchange back split interrupted
    rw [outcome_bind_of_ok result]
    -- The first action succeeded, so none of its calls was interrupted.
    rcases List.append_eq_append_iff.mp split with ⟨between, rfl, rest⟩ | ⟨between, whole, rest⟩
    · exact heeded between exchange back rest interrupted
    · cases between with
      | nil => exact heeded [] exchange back rest.symm interrupted
      | cons first between =>
        obtain ⟨rfl, -⟩ := List.cons.inj rest
        obtain ⟨-, failure, failed, -⟩ := heeds front _ between whole interrupted
        rw [result] at failed
        cases failed

/-- A step around an action leaves the cause of an interruption as it is. -/
theorem Heeds.within {action : Action α} (heeds : action.Heeds) (step : Fault) :
    (Action.within step action).Heeds := by
  intro s
  obtain ⟨calls, led, heeds⟩ := heeds s
  refine ⟨calls, by rwa [after_within], fun front exchange back split interrupted => ?_⟩
  obtain ⟨last, failure, failed, interruption⟩ := heeds front exchange back split interrupted
  refine ⟨last, failure.within step, ?_, interruption⟩
  rw [outcome_within, failed]
  rfl

/-- A command that must succeed heeds its interruption. -/
theorem heeds_runToSuccess (runner : Runner) (command : Command) :
    (runToSuccess runner command).Heeds :=
  (heeds_run runner command).bind fun _ =>
    ((quiet_ofExcept _).bind fun _ => Quiet.pure _).heeds

end Action

namespace Bench

open DialectBench.Action

variable (bench : Bench)

/-- The opening of a comparison heeds interruptions. -/
theorem heeds_prepareRun : bench.prepareRun.Heeds := by
  refine (bench.quiet_prepareDirectories _).heeds.bind fun _ =>
    ((heeds_run _ _).within _).bind fun output => Quiet.heeds ?_
  split
  · exact Quiet.pure ()
  · exact Quiet.throw _

/-- Cleaning the caches heeds interruptions. -/
theorem heeds_clearCaches : bench.clearCaches.Heeds := by
  unfold clearCaches
  split
  · exact (quiet_warn _).heeds
  · exact (heeds_runToSuccess _ _).bind fun _ => (bench.quiet_deleteTree _).heeds

/-- Patching the workspace heeds interruptions. -/
theorem heeds_adaptWorkspace : bench.adaptWorkspace.Heeds := by
  unfold adaptWorkspace
  split
  · exact (quiet_warn _).heeds
  · exact (heeds_runToSuccess _ _).bind fun _ => (Quiet.pure ()).heeds

/-- Patching the configuration heeds interruptions. -/
theorem heeds_setPreset (preset : String) : (bench.setPreset preset).Heeds :=
  (heeds_runToSuccess _ _).bind fun _ => (Quiet.pure ()).heeds

/-- Starting a database heeds interruptions, also of the removal with which it begins. -/
theorem heeds_startDatabase (target : Target) : (bench.startDatabase target).Heeds := by
  refine (heeds_run _ _).bind fun _ => ((heeds_runToSuccess _ _).within _).bind fun _ =>
    (heeds_run _ _).bind fun inspected => Quiet.heeds ?_
  split
  · exact Quiet.pure ()
  · exact Quiet.throw _

end Bench

/-- A visit heeds interruptions: a call that is interrupted is followed by the removal of the container
of the tests at most, and the stage fails with an interruption. The removal itself is no such call. -/
def Visit.Heeds (target : Target) (visit : Visit) : Prop :=
  ∀ front exchange back, visit.calls = front ++ exchange :: back →
    exchange.reply.interrupted = true →
    (∀ newest, front.getLast? = some newest → ¬ newest.IsWatched) →
      (∃ failure, visit.failure = some failure ∧ failure.isInterruption = true) ∧
        (back.map Exchange.call).Sublist [.run (Bench.removeCommand target.testContainer)]

namespace Bench

open DialectBench.Action

/-- A stage heeds interruptions when its action does. -/
theorem visit_heeds {α : Type} {stage : Stage} {action : Action α} (heeds : action.Heeds)
    (target : Target) (s : Session) : (Visit.of stage action s).Heeds target := by
  intro front exchange back split interrupted _
  obtain ⟨calls, led, heeds⟩ := heeds s
  rw [Visit.calls_of led] at split
  obtain ⟨rfl, failure, failed, interruption⟩ := heeds front exchange back split interrupted
  refine ⟨⟨failure, ?_, interruption⟩, List.nil_sublist _⟩
  rw [Visit.of, failed, failureOf]

/-- The launch of the tests heeds the interruption of its watched command. -/
theorem visit_heeds_launchTests (bench : Bench) (target : Target) (s : Session) :
    (Visit.of .launchTests (bench.launchTests target) s).Heeds target := by
  intro front exchange back split interrupted unwatched
  obtain ⟨stream, rest, led, -, call, reply, removes, decides⟩ := bench.leads_launchTests target s
  rw [Visit.calls_of led] at split
  cases front with
  | nil =>
    -- The watched command was interrupted, so its container may still be there.
    obtain ⟨rfl, rfl⟩ := List.cons.inj split
    rw [reply] at interrupted
    cases result : (bench.watchTests target s.scene.moment.stamp).outcome s with
    | ok ending =>
      rw [result] at interrupted
      cases interrupted
    | error failure =>
      rw [result] at interrupted removes decides
      refine ⟨⟨failure, ?_, interrupted⟩, ?_⟩
      · rw [Visit.of, decides, failureOf]
      · rw [removes]
        exact List.Sublist.refl _
  | cons first front =>
    obtain ⟨rfl, rest⟩ := List.cons.inj split
    -- At most one call follows the watched one, so the watched one stands right before it.
    have single : front.length + (back.length + 1) ≤ 1 := by
      have made := congrArg List.length removes
      rw [List.length_map, rest] at made
      have few : (if isStranded ((bench.watchTests target s.scene.moment.stamp).outcome s) = true
          then [Call.run (removeCommand target.testContainer)] else []).length ≤ 1 := by
        split <;> simp
      simpa [← made] using few
    obtain rfl : front = [] := List.eq_nil_of_length_eq_zero (by omega)
    exact absurd ⟨_, _, _, call⟩ (unwatched stream rfl)

/-- What holds of a stage in any session, and of the visits behind it, holds of all visits. -/
theorem forall_mem_visit {α : Type} {holds : Visit → Prop} {name : Stage} {action : Action α}
    {next : α → Session → List Visit} (here : ∀ s, holds (Visit.of name action s))
    (rest : ∀ value s, ∀ visit ∈ next value s, holds visit) (s : Session) :
    ∀ other ∈ visit name action next s, holds other := by
  intro other member
  rcases List.mem_cons.mp member with rfl | later
  · exact here s
  -- There are visits behind the stage only if it was passed.
  · cases result : action.outcome s with
    | error failure =>
      rw [result] at later
      cases later
    | ok value =>
      rw [result] at later
      exact rest value _ other later

/-- Every visit of a target heeds interruptions. -/
theorem visits_heed (bench : Bench) (target : Target) (s : Session) :
    ∀ visit ∈ bench.visits target s, visit.Heeds target := by
  -- The stages are taken in the order in which a target goes through them.
  have backend : ∀ s, ∀ visit ∈ bench.backendVisits target s, visit.Heeds target :=
    forall_mem_visit (visit_heeds (bench.heeds_startDatabase target) target) fun _ =>
      forall_mem_visit (bench.visit_heeds_launchTests target) fun execution =>
      forall_mem_visit (visit_heeds (bench.quiet_gatherResults target execution).heeds target)
        fun collection =>
      forall_mem_visit (visit_heeds
        (bench.quiet_summarizeResults target collection execution.stamp).heeds target)
        fun _ _ _ none => nomatch none
  have checks : ∀ s, ∀ other ∈ visit .checkDialect (bench.checkDialect target)
      (fun _ => bench.backendVisits target) s, other.Heeds target :=
    forall_mem_visit (visit_heeds (bench.quiet_checkDialect target).heeds target) fun _ => backend
  refine forall_mem_visit (visit_heeds bench.heeds_clearCaches target) (fun _ => ?_) s
  unfold visitPreset
  cases target.preset with
  | none => exact checks
  | some preset =>
    exact forall_mem_visit (visit_heeds (bench.heeds_setPreset preset) target) fun _ => checks

end Bench

end DialectBench

import DialectBench.Proofs.Bench.Stages

/-! The way of a target through its stages: which of them it visits, and what comes of it. -/

namespace DialectBench

namespace Target

/-- The stages of a target before anything is started for it. -/
def openingStages (target : Target) : List Stage :=
  .clearCaches :: target.preset.toList.map (fun _ => .setPreset) ++ [.checkDialect]

/-- The stages of a target, in the order in which it goes through them. -/
def stages (target : Target) : List Stage :=
  target.openingStages ++ [.startDatabase, .launchTests, .collect, .summarize]

end Target

namespace Bench

/-- The visits of a target from a stage on. -/
def visit {α : Type} (name : Stage) (action : Action α) (next : α → Session → List Visit)
    (s : Session) : List Visit :=
  Visit.of name action s ::
    match action.outcome s with
    | .ok value => next value (action.after s)
    | .error _ => []

/-- Behind a stage that is passed the visits go on. -/
theorem visit_of_ok {α : Type} {name : Stage} {action : Action α} {s : Session} {value : α}
    (passed : action.outcome s = .ok value) (next : α → Session → List Visit) :
    visit name action next s = Visit.of name action s :: next value (action.after s) := by
  rw [visit, passed]

/-- The visits of a target from the choice of its preset on. -/
def visitPreset (bench : Bench) (target : Target) (next : Session → List Visit) (s : Session) :
    List Visit :=
  match target.preset with
  | some preset => visit .setPreset (bench.setPreset preset) (fun _ => next) s
  | none => next s

/-- The visits of a target from the start of its database on. -/
def backendVisits (bench : Bench) (target : Target) : Session → List Visit :=
  visit .startDatabase (bench.startDatabase target) fun _ =>
  visit .launchTests (bench.launchTests target) fun execution =>
  visit .collect (bench.gatherResults target execution) fun collection =>
  visit .summarize (bench.summarizeResults target collection execution.stamp) fun _ _ => []

/-- The visits of a target: its stages in turn, up to the first one that fails. -/
def visits (bench : Bench) (target : Target) : Session → List Visit :=
  visit .clearCaches bench.clearCaches fun _ =>
  bench.visitPreset target <|
  visit .checkDialect (bench.checkDialect target) fun _ =>
  bench.backendVisits target

end Bench

/-- A target goes through stages from one session to another: what it visits, and what comes of
it. -/
inductive Course (bench : Bench) (target : Target) :
    List Stage → Session → List Visit → Except Failure TargetFate → Session → Prop where
  /-- No stage is left. -/
  | completed (s : Session) (collection summary : Path) (code : Int) :
    Course bench target [] s [] (.ok (.completed collection summary code)) s
  /-- A stage is passed. -/
  | passed {visit : Visit} {stage : Stage} {stages : List Stage} {s t : Session}
      {visits : List Visit} {outcome : Except Failure TargetFate} (fits : visit.Fits bench target)
      (named : visit.stage = stage) (began : visit.before = s) (passed : visit.failure = none)
      (rest : Course bench target stages visit.after visits outcome t) :
    Course bench target (stage :: stages) s (visit :: visits) outcome t
  /-- A stage fails, and the target is given up. -/
  | abandoned {visit : Visit} {stage : Stage} {stages : List Stage} {s : Session} {failure : Failure}
      (fits : visit.Fits bench target) (named : visit.stage = stage) (began : visit.before = s)
      (failed : visit.failure = some failure) (ordinary : failure.isInterruption = false) :
    Course bench target (stage :: stages) s [visit] (.ok (.abandoned stage failure.account))
      visit.after
  /-- A stage is interrupted, and so is the run. -/
  | stopped {visit : Visit} {stage : Stage} {stages : List Stage} {s : Session} {failure : Failure}
      (fits : visit.Fits bench target) (named : visit.stage = stage) (began : visit.before = s)
      (failed : visit.failure = some failure) (interruption : failure.isInterruption = true) :
    Course bench target (stage :: stages) s [visit] (.error failure) visit.after

namespace Course

variable {bench : Bench} {target : Target} {stages first rest : List Stage} {s t : Session}
  {visits : List Visit} {outcome : Except Failure TargetFate}

/-- The calls of the visits lead from the start to the end. -/
theorem leads (course : Course bench target stages s visits outcome t) :
    s.Leads (visits.flatMap Visit.calls) t := by
  -- A visit leads from where it began, and the others lead on from there.
  induction course with
  | completed s => exact .refl s
  | passed fits _ began _ _ ih => exact began ▸ fits.leads.trans ih
  | abandoned fits _ began | stopped fits _ began => simpa [began] using fits.leads

/-- Every visit does what its stage should. -/
theorem fits (course : Course bench target stages s visits outcome t) {visit : Visit}
    (member : visit ∈ visits) : visit.Fits bench target := by
  -- Every way to go on or to end has a visit that fits.
  induction course with
  | completed => cases member
  | passed fits _ _ _ _ ih =>
    rcases List.mem_cons.mp member with rfl | later
    · exact fits
    · exact ih later
  | abandoned fits | stopped fits =>
    rw [List.mem_singleton.mp member]
    exact fits

/-- The visited stages are the first ones. -/
theorem stages_prefix (course : Course bench target stages s visits outcome t) :
    visits.map Visit.stage <+: stages := by
  -- A course that ends early leaves the other stages out.
  induction course with
  | completed => simp
  | passed _ named _ _ _ ih => simpa [named] using ih
  | abandoned _ named | stopped _ named => simp [named]

/-- A target is given up at one of its stages. -/
theorem stage_mem (course : Course bench target stages s visits outcome t) {stage : Stage}
    {reason : String} (abandoned : outcome = .ok (.abandoned stage reason)) : stage ∈ stages := by
  -- Only the constructor for a target that is given up has such an outcome.
  induction course with
  | completed => cases abandoned
  | passed _ _ _ _ _ ih => exact List.mem_cons_of_mem _ (ih abandoned)
  | abandoned =>
    cases abandoned
    exact List.mem_cons_self
  | stopped => cases abandoned

/-- A target is completed when all stages are passed, and else the first stage that fails decides
what comes of it. -/
theorem account (course : Course bench target stages s visits outcome t) :
    (visits.map Visit.stage = stages ∧ (∀ visit ∈ visits, visit.failure = none) ∧
      ∃ collection summary code, outcome = .ok (.completed collection summary code)) ∨
    ∃ earlier last failure, visits = earlier ++ [last] ∧
      (∀ visit ∈ earlier, visit.failure = none) ∧ last.failure = some failure ∧
      outcome = if failure.isInterruption then .error failure
        else .ok (.abandoned last.stage failure.account) := by
  -- The first failure is found at the end of the visits, because a course ends with it.
  induction course with
  | completed s collection summary code => exact .inl ⟨rfl, by simp, _, _, _, rfl⟩
  | @passed visit _ _ _ _ _ _ _ named _ passed _ ih =>
    obtain ⟨all, none, completed⟩ | ⟨earlier, last, failure, rfl, none, failed, decides⟩ := ih
    · exact .inl ⟨by simp [named, all], List.forall_mem_cons.mpr ⟨passed, none⟩, completed⟩
    · exact .inr ⟨visit :: earlier, last, failure, rfl, List.forall_mem_cons.mpr ⟨passed, none⟩,
        failed, decides⟩
  | @abandoned visit _ _ _ failure _ named _ failed ordinary =>
    exact .inr ⟨[], visit, failure, rfl, by simp, failed, by simp [named, ordinary]⟩
  | @stopped visit _ _ _ failure _ _ _ failed interruption =>
    exact .inr ⟨[], visit, failure, rfl, by simp, failed, by simp [interruption]⟩

end Course

/-- A target passes stages from one session to another. -/
def Passes (bench : Bench) (target : Target) (stages : List Stage) (s : Session)
    (visits : List Visit) (t : Session) : Prop :=
  ∃ collection summary code,
    Course bench target stages s visits (.ok (.completed collection summary code)) t

namespace Passes

variable {bench : Bench} {target : Target} {stages : List Stage} {s t : Session}
  {visits : List Visit}

/-- The calls of the visits lead from the start to the end. -/
theorem leads (passes : Passes bench target stages s visits t) :
    s.Leads (visits.flatMap Visit.calls) t :=
  have ⟨_, _, _, course⟩ := passes
  course.leads

/-- Every visit does what its stage should. -/
theorem fits (passes : Passes bench target stages s visits t) {visit : Visit}
    (member : visit ∈ visits) : visit.Fits bench target :=
  have ⟨_, _, _, course⟩ := passes
  course.fits member

/-- No stage is left out, and none fails. -/
theorem all (passes : Passes bench target stages s visits t) :
    visits.map Visit.stage = stages ∧ ∀ visit ∈ visits, visit.failure = none := by
  obtain ⟨_, _, _, course⟩ := passes
  -- A course with a failure does not complete its target.
  obtain ⟨all, none, -⟩ | ⟨_, last, failure, -, -, -, decides⟩ := course.account
  · exact ⟨all, none⟩
  · cases failed : failure.isInterruption <;> simp [failed] at decides

/-- No stage leads from a session to itself. -/
theorem nil (bench : Bench) (target : Target) (s : Session) : Passes bench target [] s [] s :=
  ⟨_, _, _, .completed s default default 0⟩

/-- A stage that is passed comes before others. -/
theorem cons {visit : Visit} {stage : Stage} (fits : visit.Fits bench target)
    (named : visit.stage = stage) (began : visit.before = s) (passed : visit.failure = none)
    (passes : Passes bench target stages visit.after visits t) :
    Passes bench target (stage :: stages) s (visit :: visits) t :=
  have ⟨_, _, _, course⟩ := passes
  ⟨_, _, _, .passed fits named began passed course⟩

end Passes

/-- A target stops at one of the first stages, or it passes them all and goes on. -/
theorem Course.split {bench : Bench} {target : Target} {first rest : List Stage} {s t : Session}
    {visits : List Visit} {outcome : Except Failure TargetFate}
    (course : Course bench target (first ++ rest) s visits outcome t) :
    (Course bench target first s visits outcome t ∧
      ∀ collection summary code, outcome ≠ .ok (.completed collection summary code)) ∨
    ∃ earlier later u, visits = earlier ++ later ∧ Passes bench target first s earlier u ∧
      Course bench target rest u later outcome t := by
  -- The first stages are taken away one by one, and the course follows them.
  induction first generalizing s visits with
  | nil => exact .inr ⟨[], visits, s, rfl, .nil bench target s, course⟩
  | cons stage first ih =>
    cases course with
    | @passed visit _ _ _ _ _ _ fits named began passed course =>
      obtain ⟨course, open_⟩ | ⟨earlier, later, u, rfl, passes, course⟩ := ih course
      · exact .inl ⟨.passed fits named began passed course, open_⟩
      · exact .inr ⟨visit :: earlier, later, u, rfl, .cons fits named began passed passes, course⟩
    | abandoned fits named began failed ordinary =>
      exact .inl ⟨.abandoned fits named began failed ordinary, by simp⟩
    | stopped fits named began failed interruption =>
      exact .inl ⟨.stopped fits named began failed interruption, by simp⟩

namespace Passes

variable {bench : Bench} {target : Target} {s t : Session} {visits : List Visit}

/-- A single stage is passed by a single visit. -/
theorem single {stage : Stage} (passes : Passes bench target [stage] s visits t) :
    ∃ visit, visits = [visit] ∧ visit.Fits bench target ∧ visit.stage = stage ∧
      visit.before = s ∧ visit.failure = none ∧ visit.after = t := by
  obtain ⟨_, _, _, course⟩ := passes
  cases course with
  | @passed visit _ _ _ _ _ _ fits named began passed course =>
    cases course with
    | completed => exact ⟨visit, rfl, fits, named, began, passed, rfl⟩

/-- Stages that are passed are passed up to any of them. -/
theorem split {first rest : List Stage}
    (passes : Passes bench target (first ++ rest) s visits t) :
    ∃ earlier later between, visits = earlier ++ later ∧
      Passes bench target first s earlier between ∧ Passes bench target rest between later t := by
  obtain ⟨_, _, _, course⟩ := passes
  obtain ⟨-, open_⟩ | ⟨earlier, later, between, same, opening, course⟩ := course.split
  · exact absurd rfl (open_ _ _ _)
  · exact ⟨earlier, later, between, same, opening, _, _, _, course⟩

end Passes

namespace Bench

open DialectBench.Action

variable {α : Type} {name : Stage} {action : Action α} {next : α → Action TargetFate} {s : Session}

/-- A stage that is passed hands over to what follows. -/
theorem outcome_stage_of_ok {value : α} (passed : action.outcome s = .ok value) :
    (stage name action next).outcome s = (next value).outcome (action.after s) := by
  rw [stage, outcome_bind_of_ok (outcome_attempt action s), after_attempt, passed]
  rfl

/-- A stage that is passed leaves the session to what follows. -/
theorem after_stage_of_ok {value : α} (passed : action.outcome s = .ok value) :
    (stage name action next).after s = (next value).after (action.after s) := by
  rw [stage, after_bind_of_ok (outcome_attempt action s), after_attempt, passed]
  rfl

/-- A stage that fails gives the target up, unless it was interrupted. -/
theorem outcome_stage_of_error {failure : Failure} (failed : action.outcome s = .error failure) :
    (stage name action next).outcome s =
      if failure.isInterruption then .error failure
      else .ok (.abandoned name failure.account) := by
  rw [stage, outcome_bind_of_ok (outcome_attempt action s), failed]
  -- An interruption goes on as a failure, and any other failure as a fate.
  cases interrupted : failure.isInterruption <;> simp [Progress.ofResult, interrupted]

/-- After a stage that fails nothing more is done. -/
theorem after_stage_of_error {failure : Failure} (failed : action.outcome s = .error failure) :
    (stage name action next).after s = action.after s := by
  rw [stage, after_bind_of_ok (outcome_attempt action s), after_attempt, failed]
  cases interrupted : failure.isInterruption <;> simp [Progress.ofResult, interrupted]

/-- An action goes through stages with the visits that are listed for it, up to what is done in the
end for the sake of a stage that was visited. -/
def Follows (bench : Bench) (target : Target) (close : List Visit → Session → Session)
    (stages : List Stage) (action : Action TargetFate) (visits : Session → List Visit) : Prop :=
  ∀ s, ∃ t, Course bench target stages s (visits s) (action.outcome s) t ∧
    action.after s = close (visits s) t

/-- A stage in front of stages. -/
theorem follows_stage {bench : Bench} {target : Target} {close : List Visit → Session → Session}
    {stages : List Stage} {nextVisits : α → Session → List Visit}
    (fits : ∀ s, (Visit.of name action s).Fits bench target) (none : ∀ t, close [] t = t)
    (same : ∀ visit visits t, visit.stage = name → close (visit :: visits) t = close visits t)
    (rest : ∀ value, Follows bench target close stages (next value) (nextVisits value)) :
    Follows bench target close (name :: stages) (stage name action next)
      (visit name action nextVisits) := by
  intro s
  -- The stage is passed and the others follow, or it is the last one.
  cases result : action.outcome s with
  | ok value =>
    obtain ⟨t, course, after⟩ := rest value (action.after s)
    have passed : (Visit.of name action s).failure = .none := Visit.failure_of_eq_none.mpr ⟨_, result⟩
    refine ⟨t, ?_, ?_⟩
    · rw [outcome_stage_of_ok result, visit, result]
      exact .passed (fits s) rfl rfl passed course
    · rw [after_stage_of_ok result, visit, result, same _ _ _ rfl]
      exact after
  | error failure =>
    have failed : (Visit.of name action s).failure = some failure := by
      rw [Visit.of, result, failureOf]
    refine ⟨action.after s, ?_, ?_⟩
    -- Whether the target is given up or stopped is decided by the failure.
    · rw [outcome_stage_of_error result, visit, result]
      cases interrupted : failure.isInterruption with
      | false => exact .abandoned (fits s) rfl rfl failed interrupted
      | true => exact .stopped (fits s) rfl rfl failed interrupted
    · rw [after_stage_of_error result, visit, result, same _ _ _ rfl, none]

/-- What is done in the end for the sake of the stages that a target visited. -/
def teardown (bench : Bench) (target : Target) (visits : List Visit) (t : Session) : Session :=
  if visits.any fun visit => visit.stage == .startDatabase then
    (bench.dropContainer target.container).after t
  else t

/-- Stages other than the start of a database leave nothing to be done. -/
theorem teardown_cons {bench : Bench} {target : Target} {visit : Visit}
    (other : visit.stage ≠ .startDatabase) (visits : List Visit) (t : Session) :
    bench.teardown target (visit :: visits) t = bench.teardown target visits t := by
  simp [teardown, other]

/-- From the start of its database on a target goes through its last stages. -/
theorem follows_backendStages (bench : Bench) (target : Target) :
    Follows bench target (fun _ t => t) [.startDatabase, .launchTests, .collect, .summarize]
      (bench.backendStages target) (bench.backendVisits target) := by
  have none : ∀ t : Session, t = t := fun _ => rfl
  have same : ∀ (name : Stage) (visit : Visit) (_ : List Visit) (t : Session),
      visit.stage = name → t = t := fun _ _ _ _ _ => rfl
  -- The stages are put in front of one another, and what is left is a completed target.
  refine follows_stage (bench.fits_startDatabase target) none (same _) fun _ =>
    follows_stage (bench.fits_launchTests target) none (same _) fun execution =>
    follows_stage (fun s => bench.fits_collect target s execution) none (same _) fun collection =>
    follows_stage (fun s => bench.fits_summarize target s collection execution.stamp) none
      (same _) fun summary => ?_
  intro s
  exact ⟨s, .completed s collection summary execution.exitCode, rfl⟩

/-- The removal of the container in the end does not decide what comes of a target. -/
theorem outcome_withBackend (bench : Bench) (target : Target) (s : Session) :
    (bench.withBackend target).outcome s = (bench.backendStages target).outcome s := by
  rw [withBackend, outcome_bind_of_ok (outcome_attempt _ s), after_attempt,
    outcome_bind_of_ok (outcome_dropContainer _ _ _), outcome_ofExcept]

/-- With the removal of its container in the end a target goes through the same stages. -/
theorem follows_withBackend (bench : Bench) (target : Target) :
    Follows bench target (bench.teardown target)
      [.startDatabase, .launchTests, .collect, .summarize] (bench.withBackend target)
      (bench.backendVisits target) := by
  intro s
  obtain ⟨t, course, after⟩ := bench.follows_backendStages target s
  -- The start of the database is visited first, so there is a container to remove.
  have started : (bench.backendVisits target s).any
      (fun visit => visit.stage == .startDatabase) = true := by
    simp [backendVisits, visit, Visit.of]
  refine ⟨t, ?_, ?_⟩
  · rw [outcome_withBackend]
    exact course
  · rw [withBackend, after_bind_of_ok (outcome_attempt _ s), after_attempt,
      after_bind_of_ok (outcome_dropContainer _ _ _), after_ofExcept, teardown, if_pos started,
      after]

/-- A target goes through its stages, and its container is removed in the end if its database was to
be started. -/
theorem follows_drive (bench : Bench) (target : Target) :
    Follows bench target (bench.teardown target) target.stages (bench.drive target)
      (bench.visits target) := by
  have none : ∀ t, bench.teardown target [] t = t := fun _ => rfl
  have same : ∀ name : Stage, name ≠ .startDatabase → ∀ visit visits t, visit.stage = name →
      bench.teardown target (visit :: visits) t = bench.teardown target visits t :=
    fun name other visit visits t named => teardown_cons (by rwa [named]) visits t
  -- The stages up to the check leave nothing behind, so what is done in the end stays the same.
  have checks := follows_stage (bench.fits_checkDialect target) none
    (same .checkDialect (by decide)) fun _ => bench.follows_withBackend target
  refine follows_stage (bench.fits_clearCaches target) none (same _ (by decide)) fun _ => ?_
  unfold presetStage visitPreset
  -- Without a preset there is one stage less.
  cases own : target.preset with
  | none => simpa [own] using checks
  | some preset =>
    simpa [own] using follows_stage (fun s => bench.fits_setPreset target s own) none
      (same .setPreset (by decide)) fun _ => checks

/-- A target is completed behind a stage only if the stage was passed. -/
theorem completed_stage {collection summary : Path} {code : Int}
    (completed : (stage name action next).outcome s = .ok (.completed collection summary code)) :
    ∃ value, action.outcome s = .ok value ∧
      (next value).outcome (action.after s) = .ok (.completed collection summary code) := by
  -- A stage that fails gives another fate, or none.
  cases result : action.outcome s with
  | ok value =>
    rw [outcome_stage_of_ok result] at completed
    exact ⟨value, rfl, completed⟩
  | error failure =>
    rw [outcome_stage_of_error result] at completed
    split at completed <;> cases completed

/-- What a completed target has done last: its tests were launched, their results were collected, and
the collection was summarized. -/
inductive Finishes (bench : Bench) (target : Target) (visits : List Visit)
    (collection summary : Path) : Int → Prop where
  /-- Each of these stages was passed, and began where the one before it ended. -/
  | intro {s t u : Session} {execution : FinishedTests}
      (launches : Visit.of .launchTests (bench.launchTests target) s ∈ visits)
      (launched : (bench.launchTests target).outcome s = .ok execution)
      (between : (bench.launchTests target).after s = t)
      (collects : Visit.of .collect (bench.gatherResults target execution) t ∈ visits)
      (collected : (bench.gatherResults target execution).outcome t = .ok collection)
      (behind : (bench.gatherResults target execution).after t = u)
      (summarizes : Visit.of .summarize
        (bench.summarizeResults target collection execution.stamp) u ∈ visits)
      (summarized : (bench.summarizeResults target collection execution.stamp).outcome u =
        .ok summary) :
      Finishes bench target visits collection summary execution.exitCode

/-- More visits before them change nothing about the last stages. -/
theorem Finishes.cons {bench : Bench} {target : Target} {visits : List Visit}
    {collection summary : Path} {code : Int}
    (finishes : Finishes bench target visits collection summary code) (visit : Visit) :
    Finishes bench target (visit :: visits) collection summary code := by
  obtain ⟨launches, launched, between, collects, collected, behind, summarizes, summarized⟩ := finishes
  exact .intro (.tail _ launches) launched between (.tail _ collects) collected behind
    (.tail _ summarizes) summarized

section Finishing

variable {bench : Bench} {target : Target} {collection summary : Path} {code : Int}

/-- From the start of its database on a completed target passes its last stages. -/
theorem finishes_backendStages (completed : (bench.backendStages target).outcome s =
    .ok (.completed collection summary code)) :
    Finishes bench target (bench.backendVisits target s) collection summary code := by
  -- All four stages were passed, and the exit code is the one that the tests gave back.
  unfold backendStages at completed
  obtain ⟨_, started, completed⟩ := completed_stage completed
  obtain ⟨execution, launched, completed⟩ := completed_stage completed
  obtain ⟨_, collected, completed⟩ := completed_stage completed
  obtain ⟨_, summarized, completed⟩ := completed_stage completed
  rw [outcome_pure] at completed
  cases completed
  rw [backendVisits, visit_of_ok started, visit_of_ok launched, visit_of_ok collected, visit]
  exact .intro (by simp) launched rfl (by simp) collected rfl (by simp) summarized

/-- From the check of its dialect on a completed target passes them, too. -/
theorem finishes_check (completed : (stage .checkDialect (bench.checkDialect target)
    fun _ => bench.withBackend target).outcome s = .ok (.completed collection summary code)) :
    Finishes bench target (visit .checkDialect (bench.checkDialect target)
      (fun _ => bench.backendVisits target) s) collection summary code := by
  obtain ⟨_, checked, completed⟩ := completed_stage completed
  rw [outcome_withBackend] at completed
  rw [visit_of_ok checked]
  exact (finishes_backendStages completed).cons _

/-- A completed target passes its last stages. -/
theorem finishes_drive
    (completed : (bench.drive target).outcome s = .ok (.completed collection summary code)) :
    Finishes bench target (bench.visits target s) collection summary code := by
  unfold drive at completed
  obtain ⟨_, cleared, completed⟩ := completed_stage completed
  unfold presetStage at completed
  rw [visits, visit_of_ok cleared]
  unfold visitPreset
  -- A preset is one visit more before the check.
  cases own : target.preset with
  | none =>
    rw [own] at completed
    exact (finishes_check completed).cons _
  | some preset =>
    rw [own] at completed
    obtain ⟨_, patched, completed⟩ := completed_stage completed
    dsimp only
    rw [visit_of_ok patched]
    exact ((finishes_check completed).cons _).cons _

end Finishing

/-- A completed target reports the exit code with which the command of its tests ended. -/
theorem exitCode_of_drive {bench : Bench} {target : Target} {collection summary : Path} {code : Int}
    (completed : (bench.drive target).outcome s = .ok (.completed collection summary code)) :
    ∃ visit ∈ bench.visits target s, visit.stage = .launchTests ∧
      ∃ stream ∈ visit.calls, ∃ ending : Ending, stream.Watches (.ok ending) ∧
        ending.exitCode = code := by
  -- The tests were launched once, and their call comes first in the visit.
  obtain @⟨u, _, _, execution, member, launched⟩ := finishes_drive completed
  obtain ⟨stream, rest, led, -, call, reply, -, decides⟩ := bench.leads_launchTests target u
  refine ⟨_, member, rfl, stream, by simp [Visit.calls_of led], ?_⟩
  rw [launched] at decides
  -- The launch succeeded, so the command was seen to end, and nobody asked to stop.
  cases watched : (bench.watchTests target u.scene.moment.stamp).outcome u with
  | error failure => simp [watched] at decides
  | ok ending =>
    refine ⟨ending, ⟨⟨_, _, _, call⟩, by rw [reply, watched]⟩, ?_⟩
    rw [watched] at decides
    dsimp only at decides
    split at decides
    · cases decides
    · cases decides
      rfl

end Bench

end DialectBench

import DialectBench.Proofs.Session.Quiet

/-! Runners that differ only in what some calls give back, and actions for which that makes no
difference. -/

namespace DialectBench

/-- Two sessions are alike when the world is the same in both and the same calls were made. What came
of the calls, what was told and what was shown may differ. -/
structure Session.Alike (s t : Session) : Prop where
  /-- The world is the same. -/
  scene : s.scene = t.scene
  /-- The same calls were made. -/
  calls : s.calls = t.calls

/-- A session is alike to itself. -/
theorem Session.Alike.refl (s : Session) : s.Alike s := ⟨rfl, rfl⟩

/-- Two runners agree apart from some calls: they leave the same world after every call, and only for
those calls may they give back something else. -/
structure Runner.Agrees (one other : Runner) (apart : List Call → Call → Prop) : Prop where
  /-- Commands that are run leave the same world. -/
  run_scene : ∀ calls command scene,
    (one.run calls command scene).scene = (other.run calls command scene).scene
  /-- Commands that are run give back the same. -/
  run_outcome : ∀ calls command scene, ¬ apart calls (.run command) →
    (one.run calls command scene).outcome = (other.run calls command scene).outcome
  /-- Commands that are watched leave the same world. -/
  stream_scene : ∀ calls command log timing scene,
    (one.stream calls command log timing scene).scene =
      (other.stream calls command log timing scene).scene
  /-- Commands that are watched give back the same. -/
  stream_outcome : ∀ calls command log timing scene,
    ¬ apart calls (.stream command log timing.idle) →
      (one.stream calls command log timing scene).outcome =
        (other.stream calls command log timing scene).outcome

namespace Action

variable {α β : Type}

/-- Two actions match when nothing of interest tells them apart: from sessions that are alike, with
calls as they should be before, the same comes of both, and the sessions they leave are alike. After a
success the calls are as they should be behind. -/
def Matches (before : List Call → Prop) (one other : Action α) (behind : List Call → Prop) : Prop :=
  ∀ s t : Session, s.Alike t → before s.calls →
    one.outcome s = other.outcome t ∧ (one.after s).Alike (other.after t) ∧
      ∀ value, one.outcome s = .ok value → behind (one.after s).calls

/-- Nothing is asked of the calls. -/
abbrev anyCalls : List Call → Prop := fun _ => True

section Rules

variable {before between behind : List Call → Prop}

/-- Less may be known of the calls behind actions that match, and more before them. -/
theorem Matches.weaken {one other : Action α} {early late : List Call → Prop}
    (same : Matches before one other behind) (first : ∀ calls, early calls → before calls)
    (last : ∀ calls, behind calls → late calls) : Matches early one other late := by
  intro s t alike holds
  obtain ⟨outcome, after, passes⟩ := same s t alike (first _ holds)
  exact ⟨outcome, after, fun value passed => last _ (passes value passed)⟩

/-- Actions that match are followed by actions that match. -/
theorem Matches.bind {one other : Action α} {next further : α → Action β}
    (first : Matches before one other between)
    (second : ∀ value, Matches between (next value) (further value) behind) :
    Matches before (one >>= next) (other >>= further) behind := by
  intro s t alike holds
  obtain ⟨outcome, after, passes⟩ := first s t alike holds
  rw [outcome_bind, outcome_bind, after_bind, after_bind, ← outcome]
  -- Both go on or both stop, since the same comes of the first actions.
  cases result : one.outcome s with
  | error failure => exact ⟨rfl, after, fun _ passed => by cases passed⟩
  | ok value => exact second value _ _ after (passes value result)

/-- Attempts at actions that match do so, whatever comes of them. -/
theorem Matches.attempt {one other : Action α} (same : Matches before one other behind) :
    Matches before (attempt one) (attempt other) anyCalls := by
  intro s t alike holds
  obtain ⟨outcome, after, -⟩ := same s t alike holds
  rw [outcome_attempt, outcome_attempt, after_attempt, after_attempt, outcome]
  exact ⟨rfl, after, fun _ _ => trivial⟩

/-- A step around actions that match names the same failure. -/
theorem Matches.within {one other : Action α} (same : Matches before one other behind)
    (step : Fault) : Matches before (Action.within step one) (Action.within step other) behind := by
  intro s t alike holds
  obtain ⟨outcome, after, passes⟩ := same s t alike holds
  rw [outcome_within, outcome_within, after_within, after_within, outcome]
  refine ⟨rfl, after, fun value passed => ?_⟩
  -- A success is not touched by the step, so it is one without it as well.
  rw [← outcome] at passed
  cases result : one.outcome s with
  | error failure =>
    rw [result] at passed
    cases passed
  | ok value => exact passes value result

/-- On a condition actions match when they do in both cases. -/
theorem Matches.ite {condition : Prop} [Decidable condition] {one other : Action α}
    {first second : Action α} (holds : condition → Matches before one first behind)
    (fails : ¬ condition → Matches before other second behind) :
    Matches before (if condition then one else other) (if condition then first else second)
      behind := by
  by_cases decided : condition
  · rw [if_pos decided, if_pos decided]
    exact holds decided
  · rw [if_neg decided, if_neg decided]
    exact fails decided

/-- Quiet work decides from the world alone, and changes it in the same way. -/
theorem Quiet.same {action : Action α} (quiet : action.Quiet) {s t : Session} (alike : s.Alike t) :
    action.outcome s = action.outcome t ∧ (action.after s).Alike (action.after t) := by
  -- Every step reads or changes the world at most, and the calls stay as they are.
  induction quiet generalizing s t with
  | pure | throw => exact ⟨rfl, alike⟩
  | disk => exact ⟨congrArg (fun scene : Scene => Except.ok scene.disk) alike.scene, alike⟩
  | stamp =>
    rw [outcome_stamp, outcome_stamp, alike.scene]
    exact ⟨rfl, alike⟩
  | universal => exact ⟨congrArg (fun scene : Scene => Except.ok scene.moment.universal) alike.scene, alike⟩
  | stopIfAsked =>
    rw [outcome_stopIfAsked, outcome_stopIfAsked, after_stopIfAsked, after_stopIfAsked, alike.scene]
    exact ⟨rfl, alike⟩
  | perform change =>
    refine ⟨rfl, ?_, alike.calls⟩
    show { s.scene with disk := s.scene.disk.apply change } = _
    rw [alike.scene]
    rfl
  | tell | printLine => exact ⟨rfl, alike.scene, alike.calls⟩
  | attempt _ ih =>
    obtain ⟨outcome, after⟩ := ih alike
    rw [outcome_attempt, outcome_attempt, after_attempt, after_attempt, outcome]
    exact ⟨rfl, after⟩
  | @bind _ _ action next _ _ first second =>
    obtain ⟨outcome, after⟩ := first alike
    rw [outcome_bind, outcome_bind, after_bind, after_bind, ← outcome]
    cases action.outcome s with
    | error failure => exact ⟨rfl, after⟩
    | ok value => exact second value after

/-- Quiet work matches itself and leaves the calls as they are. -/
theorem Quiet.matches {action : Action α} (quiet : action.Quiet) (holds : List Call → Prop) :
    Matches holds action action holds := by
  intro s t alike held
  obtain ⟨outcome, after⟩ := quiet.same alike
  refine ⟨outcome, after, fun _ _ => ?_⟩
  -- No call was added, so the calls are those from before.
  have kept : (action.after s).calls = s.calls := by
    rw [Session.calls, (quiet.leads s).recorded]
    rfl
  rwa [kept]

end Rules

section Runners

variable {one other : Runner} {apart : List Call → Call → Prop}

/-- Entering a call keeps sessions alike, whatever came of it, if the world is the same after it. -/
theorem alike_settle {α : Type} {s t : Session} (alike : s.Alike t) (call : Call) (one other : Reply)
    {first second : Aftermath α} (same : first.scene = second.scene) :
    (settle call one first s).Alike (settle call other second t) := by
  constructor
  · simp only [settle, settled, alike.scene, same]
  · show call :: s.calls = call :: t.calls
    rw [alike.calls]

/-- Running a command leaves the same world and the same calls, whatever it gives back. -/
theorem alike_after_run (agrees : one.Agrees other apart) (command : Command) {s t : Session}
    (alike : s.Alike t) : ((run one command).after s).Alike ((run other command).after t) := by
  rw [after_run, after_run]
  refine alike_settle alike _ _ _ ?_
  rw [← alike.scene, ← alike.calls]
  exact agrees.run_scene _ _ _

/-- Where two runners agree about a command, running it is the same, and it is the newest call then. -/
theorem matches_run (agrees : one.Agrees other apart) {holds : List Call → Prop} (command : Command)
    (counts : ∀ calls, holds calls → ¬ apart calls (.run command)) :
    Matches holds (run one command) (run other command)
      fun calls => calls.head? = some (.run command) := by
  intro s t alike held
  refine ⟨?_, alike_after_run agrees command alike, fun _ _ => ?_⟩
  · rw [outcome_run, outcome_run, ← alike.scene, ← alike.calls]
    exact agrees.run_outcome _ _ _ (counts _ held)
  · rw [after_run]
    rfl

/-- Where two runners agree about a command, running it to success is the same. -/
theorem matches_runToSuccess (agrees : one.Agrees other apart) {holds : List Call → Prop}
    (command : Command) (counts : ∀ calls, holds calls → ¬ apart calls (.run command)) :
    Matches holds (runToSuccess one command) (runToSuccess other command)
      fun calls => calls.head? = some (.run command) :=
  (matches_run agrees command counts).bind fun output =>
    ((quiet_ofExcept _).bind fun _ => Quiet.pure output).matches _

/-- Where two runners agree about a command, watching it is the same. -/
theorem matches_stream (agrees : one.Agrees other apart) (command : Command) (log : Path)
    (timing : Watching.Timing) (counts : ∀ calls, ¬ apart calls (.stream command log timing.idle)) :
    Matches anyCalls (stream one command log timing) (stream other command log timing) anyCalls := by
  intro s t alike _
  rw [outcome_stream, outcome_stream, after_stream, after_stream]
  refine ⟨?_, alike_settle alike _ _ _ ?_, fun _ _ => trivial⟩
  · rw [← alike.scene, ← alike.calls]
    exact agrees.stream_outcome _ _ _ _ _ (counts _)
  · rw [← alike.scene, ← alike.calls]
    exact agrees.stream_scene _ _ _ _ _

end Runners

end Action

end DialectBench

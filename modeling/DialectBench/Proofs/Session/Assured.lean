import DialectBench.Proofs.Session.Upkeep

/-! What is assured behind an action, whether it succeeds or fails, as long as its calls do no harm. -/

namespace DialectBench.Action

variable {α β : Type} {harmless : Exchange → Prop} {before : Scene → Prop} {action : Action α}
  {middle after : Except Failure α → Scene → Prop}

/-- From a world of some kind an action leads to what is wanted of its outcome and of the world behind it,
as long as its calls do no harm. -/
structure Assures (harmless : Exchange → Prop) (before : Scene → Prop) (action : Action α)
    (after : Except Failure α → Scene → Prop) : Prop where
  /-- Calls are all that leads from the session before to the one behind. -/
  leads : ∀ s : Session, ∃ made, s.Leads made (action.after s)
  /-- Without harm the outcome and the world are as they should be. -/
  holds : ∀ s : Session, before s.scene → (∀ exchange ∈ action.trace s, harmless exchange) →
    after (action.outcome s) (action.after s).scene

/-- What an action upholds is assured if no harmless call breaks it. -/
theorem Upholds.assures {holds : Disk → Prop} (upholds : action.Upholds holds)
    (keeps : ∀ exchange, harmless exchange → exchange.Keeps holds) :
    Assures harmless (fun scene => holds scene.disk) action fun _ scene => holds scene.disk where
  leads s := (upholds s).imp fun _ held => held.1
  holds _ held harms := upholds.after held fun exchange member => keeps exchange (harms exchange member)

namespace Assures

/-- What is assured from worlds of a kind is assured from those of a narrower kind. -/
theorem narrow {narrower : Scene → Prop} (assures : Assures harmless before action after)
    (narrows : ∀ scene, narrower scene → before scene) : Assures harmless narrower action after :=
  ⟨assures.leads, fun s here => assures.holds s (narrows _ here)⟩

/-- Quiet work makes no calls. -/
theorem of_quiet (quiet : action.Quiet)
    (leaves : ∀ s : Session, before s.scene → after (action.outcome s) (action.after s).scene) :
    Assures harmless before action after :=
  ⟨fun s => ⟨[], quiet.leads s⟩, fun s here _ => leaves s here⟩

/-- A value is given back. -/
theorem pure (value : α) (gives : ∀ scene, before scene → after (.ok value) scene) :
    Assures harmless before (pure value) after :=
  of_quiet (.pure value) fun s here => gives s.scene here

/-- The action fails. -/
theorem throw (failure : Failure) (gives : ∀ scene, before scene → after (.error failure) scene) :
    Assures harmless before (throw failure : Action α) after :=
  of_quiet (.throw failure) fun s here => gives s.scene here

/-- Behind a command that was run there is what its call leaves. -/
theorem run {after : Except Failure Output → Scene → Prop} (runner : Runner) (command : Command)
    (settles : ∀ outcome here there, before here →
      harmless ⟨.run command, .output outcome, here, there⟩ → after outcome there) :
    Assures harmless before (run runner command) after where
  leads s := (leads_run runner command s).imp' (fun exchange => [exchange]) fun _ led => led.1
  holds s here harms := by
    obtain ⟨⟨call, reply, early, late⟩, led, rfl, rfl, rfl⟩ := leads_run runner command s
    rw [trace, led.since_eq, List.forall_mem_singleton] at harms
    -- The scene behind the call is the one behind the action, as the call is the last thing done.
    have same : late = ((Action.run runner command).after s).scene := by
      have recorded := led.recorded
      rw [after_run] at recorded ⊢
      exact (congrArg Exchange.after (List.cons.inj recorded).1).symm
    exact settles _ _ _ here (same ▸ harms)

/-- What is assured behind two actions in turn: a failure of the first one ends both. -/
theorem bind {next : α → Action β} {last : Except Failure β → Scene → Prop}
    (first : Assures harmless before action middle)
    (second : ∀ value, Assures harmless (middle (.ok value)) (next value) last)
    (fails : ∀ failure scene, middle (.error failure) scene → last (.error failure) scene) :
    Assures harmless before (action >>= next) last where
  leads s := by
    obtain ⟨early, led⟩ := first.leads s
    rw [after_bind]
    -- A first action that fails makes all the calls, and otherwise those of the second come behind.
    cases action.outcome s with
    | error failure => exact ⟨early, led⟩
    | ok value =>
      obtain ⟨late, goes⟩ := (second value).leads (action.after s)
      exact ⟨early ++ late, led.trans goes⟩
  holds s here harms := by
    cases outcome : action.outcome s with
    | error failure =>
      rw [trace_bind_of_error outcome] at harms
      rw [outcome_bind_of_error outcome, after_bind_of_error outcome]
      exact fails failure _ (outcome ▸ first.holds s here harms)
    | ok value =>
      obtain ⟨early, led⟩ := first.leads s
      obtain ⟨late, goes⟩ := (second value).leads (action.after s)
      rw [trace_bind_of_ok outcome led goes] at harms
      obtain ⟨mine, others⟩ := List.forall_mem_append.mp harms
      rw [outcome_bind_of_ok outcome, after_bind_of_ok outcome]
      exact (second value).holds _ (outcome ▸ first.holds s here mine) others

/-- What is assured behind an attempt and what follows it, whatever comes of the attempt. -/
theorem attempt_bind {next : Except Failure α → Action β} {last : Except Failure β → Scene → Prop}
    (first : Assures harmless before action middle)
    (second : ∀ result, Assures harmless (middle result) (next result) last) :
    Assures harmless before (attempt action >>= next) last := by
  -- The attempt passes with whatever came of the action.
  have tried : Assures harmless before (Action.attempt action)
      fun outcome scene => ∃ result, outcome = .ok result ∧ middle result scene := by
    refine ⟨fun s => ?_, fun s here harms => ?_⟩
    · rw [after_attempt]
      exact first.leads s
    · rw [trace, after_attempt] at harms
      rw [after_attempt, outcome_attempt]
      exact ⟨_, rfl, first.holds s here harms⟩
  refine tried.bind (fun result => (second result).narrow ?_) ?_
  · rintro scene ⟨_, same, held⟩
    exact Except.ok.inj same ▸ held
  · rintro failure scene ⟨_, none, -⟩
    cases none

/-- A step around an action is named in its failure only. -/
theorem within {last : Except Failure α → Scene → Prop} (step : Fault)
    (assures : Assures harmless before action after)
    (settles : ∀ outcome scene, after outcome scene →
      last (outcome.mapError (Failure.within step)) scene) :
    Assures harmless before (within step action) last where
  leads s := by
    rw [after_within]
    exact assures.leads s
  holds s here harms := by
    rw [trace, after_within] at harms
    rw [after_within, outcome_within]
    exact settles _ _ (assures.holds s here harms)

end Assures

end DialectBench.Action

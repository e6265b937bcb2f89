import DialectBench.Disk.Walk

/-! What comes of an action and the session that it leaves, step by step. -/

namespace DialectBench

/-- A changed result is a value if the result was one. -/
theorem map_eq_ok {α β : Type} {change : α → β} {result : Except Failure α} {last : β} :
    result.map change = .ok last ↔ ∃ value, result = .ok value ∧ change value = last := by
  cases result <;> simp [Except.map]

/-- A changed result is a failure if the result was that one. -/
theorem map_eq_error {α β : Type} {change : α → β} {result : Except Failure α}
    {failure : Failure} : result.map change = .error failure ↔ result = .error failure := by
  cases result <;> simp [Except.map]

namespace Action

variable {α β : Type}

/-- What comes of an action in a session. -/
def outcome (action : Action α) (s : Session) : Except Failure α :=
  ((ExceptT.run action).run s).1

/-- The session that an action leaves. -/
def after (action : Action α) (s : Session) : Session :=
  ((ExceptT.run action).run s).2

/-- A value is given back in the same session. -/
@[simp] theorem outcome_pure (value : α) (s : Session) :
    outcome (pure value) s = .ok value := rfl

/-- Giving a value back leaves the session alone. -/
@[simp] theorem after_pure (value : α) (s : Session) : after (pure value) s = s := rfl

/-- The second of two actions works in what the first one left, unless the first one failed. -/
@[simp] theorem outcome_bind (action : Action α) (next : α → Action β) (s : Session) :
    outcome (action >>= next) s =
      match action.outcome s with
      | .ok value => (next value).outcome (action.after s)
      | .error failure => .error failure := by
  -- Both layers of an action come off, and what the first one gives decides the rest.
  simp only [outcome, after, ExceptT.run, bind, ExceptT.bind, ExceptT.mk, StateT.run, StateT.bind]
  rcases action s with ⟨_ | _, _⟩ <;> rfl

/-- What the first of two actions did stays done when it failed. -/
@[simp] theorem after_bind (action : Action α) (next : α → Action β) (s : Session) :
    after (action >>= next) s =
      match action.outcome s with
      | .ok value => (next value).after (action.after s)
      | .error _ => action.after s := by
  -- The layers come off as before, with the session in place of the result.
  simp only [outcome, after, ExceptT.run, bind, ExceptT.bind, ExceptT.mk, StateT.run, StateT.bind]
  rcases action s with ⟨_ | _, _⟩ <;> rfl

/-- After a first action that succeeded the second one decides what comes of both. -/
theorem outcome_bind_of_ok {action : Action α} {s : Session} {value : α}
    (passed : action.outcome s = .ok value) (next : α → Action β) :
    outcome (action >>= next) s = (next value).outcome (action.after s) := by
  rw [outcome_bind, passed]

/-- After a first action that succeeded the second one decides what is left. -/
theorem after_bind_of_ok {action : Action α} {s : Session} {value : α}
    (passed : action.outcome s = .ok value) (next : α → Action β) :
    after (action >>= next) s = (next value).after (action.after s) := by
  rw [after_bind, passed]

/-- A first action that failed decides what comes of both. -/
theorem outcome_bind_of_error {action : Action α} {s : Session} {failure : Failure}
    (failed : action.outcome s = .error failure) (next : α → Action β) :
    outcome (action >>= next) s = .error failure := by
  rw [outcome_bind, failed]

/-- A first action that failed decides what is left. -/
theorem after_bind_of_error {action : Action α} {s : Session} {failure : Failure}
    (failed : action.outcome s = .error failure) (next : α → Action β) :
    after (action >>= next) s = action.after s := by
  rw [after_bind, failed]

/-- Two actions in turn succeed when both do. -/
theorem outcome_bind_eq_ok {action : Action α} {next : α → Action β} {s : Session} {last : β} :
    outcome (action >>= next) s = .ok last ↔
      ∃ value, action.outcome s = .ok value ∧
        (next value).outcome (action.after s) = .ok last := by
  rw [outcome_bind]
  cases action.outcome s <;> simp

/-- A value is changed after the action that gives it. -/
@[simp] theorem outcome_map (change : α → β) (action : Action α) (s : Session) :
    outcome (change <$> action) s = (action.outcome s).map change := by
  simp only [outcome, ExceptT.run, Functor.map, ExceptT.map, ExceptT.mk, StateT.run, bind,
    StateT.bind]
  rcases action s with ⟨_ | _, _⟩ <;> rfl

/-- Changing a value leaves what the action leaves. -/
@[simp] theorem after_map (change : α → β) (action : Action α) (s : Session) :
    after (change <$> action) s = action.after s := by
  simp only [after, ExceptT.run, Functor.map, ExceptT.map, ExceptT.mk, StateT.run, bind,
    StateT.bind]
  rcases action s with ⟨_ | _, _⟩ <;> rfl

/-- A failure is what comes of failing. -/
@[simp] theorem outcome_throw (failure : Failure) (s : Session) :
    outcome (throw failure : Action α) s = .error failure := rfl

/-- Failing leaves the session alone. -/
@[simp] theorem after_throw (failure : Failure) (s : Session) :
    after (throw failure : Action α) s = s := rfl

/-- An attempt never fails. -/
@[simp] theorem outcome_attempt (action : Action α) (s : Session) :
    (attempt action).outcome s = .ok (action.outcome s) := by
  -- A failure is caught and handed on as a value.
  simp only [attempt, outcome, tryCatch, tryCatchThe, MonadExceptOf.tryCatch, ExceptT.tryCatch,
    ExceptT.mk, ExceptT.run, StateT.run, bind, ExceptT.bind, StateT.bind]
  rcases action s with ⟨_ | _, _⟩ <;> rfl

/-- An attempt leaves what the action leaves, also when the action fails. -/
@[simp] theorem after_attempt (action : Action α) (s : Session) :
    (attempt action).after s = action.after s := by
  simp only [attempt, after, tryCatch, tryCatchThe, MonadExceptOf.tryCatch, ExceptT.tryCatch,
    ExceptT.mk, ExceptT.run, StateT.run, bind, ExceptT.bind, StateT.bind]
  rcases action s with ⟨_ | _, _⟩ <;> rfl

/-- A step around an action is named in its failure only. -/
@[simp] theorem outcome_within (step : Fault) (action : Action α) (s : Session) :
    (within step action).outcome s = (action.outcome s).mapError (Failure.within step) := by
  -- A failure is caught and thrown again with the step, in the session that it left.
  simp only [within, outcome, tryCatch, tryCatchThe, MonadExceptOf.tryCatch, ExceptT.tryCatch,
    ExceptT.mk, ExceptT.run, StateT.run, bind, StateT.bind]
  rcases action s with ⟨_ | _, _⟩ <;> rfl

/-- A step around an action changes nothing in the session. -/
@[simp] theorem after_within (step : Fault) (action : Action α) (s : Session) :
    (within step action).after s = action.after s := by
  simp only [within, after, tryCatch, tryCatchThe, MonadExceptOf.tryCatch, ExceptT.tryCatch,
    ExceptT.mk, ExceptT.run, StateT.run, bind, StateT.bind]
  rcases action s with ⟨_ | _, _⟩ <;> rfl

/-- A result taken over is what comes of it. -/
@[simp] theorem outcome_ofExcept (result : Except Failure α) (s : Session) :
    (ofExcept result).outcome s = result := by
  cases result <;> rfl

/-- Taking a result over leaves the session alone. -/
@[simp] theorem after_ofExcept (result : Except Failure α) (s : Session) :
    (ofExcept result).after s = s := by
  cases result <;> rfl

/-- Taking over what the system allows leaves the session alone. -/
@[simp] theorem after_allowed (step : Fault) (result : Except OsError α) (s : Session) :
    (allowed step result).after s = s := by
  cases result <;> rfl

/-- A query is answered from the file tree as it is. -/
@[simp] theorem outcome_look (query : Disk → α) (s : Session) :
    (look query).outcome s = .ok (query s.scene.disk) := rfl

/-- A query leaves the session alone. -/
@[simp] theorem after_look (query : Disk → α) (s : Session) : (look query).after s = s := rfl

/-- Telling the operator something always succeeds. -/
@[simp] theorem outcome_tell (event : Event) (s : Session) : (tell event).outcome s = .ok () := rfl

/-- A warning always succeeds. -/
@[simp] theorem outcome_warn (words : String) (s : Session) : (warn words).outcome s = .ok () := rfl

/-- The time is read off the world. -/
@[simp] theorem outcome_stamp (s : Session) : stamp.outcome s = .ok s.scene.moment.stamp := rfl

/-- Reading the time leaves the session alone. -/
@[simp] theorem after_stamp (s : Session) : stamp.after s = s := rfl

/-- A request to stop is the only reason why asking for one fails. -/
@[simp] theorem outcome_stopIfAsked (s : Session) :
    stopIfAsked.outcome s =
      if s.scene.interrupted then .error Failure.interruption else .ok () := by
  -- What is read is the session itself, so only the choice is left to look at.
  have asked : stopIfAsked.outcome s =
      outcome (if s.scene.interrupted then throw Failure.interruption else pure ()) s := rfl
  rw [asked]
  split <;> rfl

/-- Asking for a request to stop leaves the session alone. -/
@[simp] theorem after_stopIfAsked (s : Session) : stopIfAsked.after s = s := by
  have asked : stopIfAsked.after s =
      after (if s.scene.interrupted then throw Failure.interruption else pure ()) s := rfl
  rw [asked]
  split <;> rfl

/-- A command that is run gives back what the runner decides from the calls so far. -/
@[simp] theorem outcome_run (runner : Runner) (command : Command) (s : Session) :
    (run runner command).outcome s = (runner.run s.calls command s.scene).outcome := by
  -- The call is entered before its result is taken over, and taking over decides the outcome.
  have same : (run runner command).outcome s =
      (ofExcept (runner.run s.calls command s.scene).outcome).outcome
        (settle (.run command) (.output (runner.run s.calls command s.scene).outcome)
          (runner.run s.calls command s.scene) s) := rfl
  rw [same, outcome_ofExcept]

/-- A command that is run leaves its call in the session, whatever comes of it. -/
@[simp] theorem after_run (runner : Runner) (command : Command) (s : Session) :
    (run runner command).after s =
      settle (.run command) (.output (runner.run s.calls command s.scene).outcome)
        (runner.run s.calls command s.scene) s := by
  -- Taking the result over leaves the session in which the call was entered.
  have same : (run runner command).after s =
      (ofExcept (runner.run s.calls command s.scene).outcome).after
        (settle (.run command) (.output (runner.run s.calls command s.scene).outcome)
          (runner.run s.calls command s.scene) s) := rfl
  rw [same, after_ofExcept]

/-- A command that is watched gives back what the runner decides from the calls so far. -/
@[simp] theorem outcome_stream (runner : Runner) (command : Command) (log : Path)
    (timing : Watching.Timing) (s : Session) :
    (stream runner command log timing).outcome s =
      (runner.stream s.calls command log timing s.scene).outcome := by
  -- A watched call is entered in the same way, and its result is an ending.
  have same : (stream runner command log timing).outcome s =
      (ofExcept (runner.stream s.calls command log timing s.scene).outcome).outcome
        (settle (.stream command log timing.idle)
          (.ending (runner.stream s.calls command log timing s.scene).outcome)
          (runner.stream s.calls command log timing s.scene) s) := rfl
  rw [same, outcome_ofExcept]

/-- A command that is watched leaves its call in the session, whatever comes of it. -/
@[simp] theorem after_stream (runner : Runner) (command : Command) (log : Path)
    (timing : Watching.Timing) (s : Session) :
    (stream runner command log timing).after s =
      settle (.stream command log timing.idle)
        (.ending (runner.stream s.calls command log timing s.scene).outcome)
        (runner.stream s.calls command log timing s.scene) s := by
  have same : (stream runner command log timing).after s =
      (ofExcept (runner.stream s.calls command log timing s.scene).outcome).after
        (settle (.stream command log timing.idle)
          (.ending (runner.stream s.calls command log timing s.scene).outcome)
          (runner.stream s.calls command log timing s.scene) s) := rfl
  rw [same, after_ofExcept]

/-- Doing something for each of several items succeeds if it succeeds for every one of them. -/
theorem outcome_forM {action : α → Action PUnit}
    (succeeds : ∀ item s, (action item).outcome s = .ok ()) (items : List α) (s : Session) :
    (items.forM action).outcome s = .ok () := by
  -- Each item is met in the session that those before it left, so that stays quantified over.
  induction items generalizing s with
  | nil => rfl
  | cons item rest ih => exact (outcome_bind_of_ok (succeeds item s) _).trans (ih _)

end Action

end DialectBench

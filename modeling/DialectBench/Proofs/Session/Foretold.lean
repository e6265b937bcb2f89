import DialectBench.Proofs.Session.Calls

/-! Actions that touch nothing, so that what they call and what comes of them can be told
beforehand. -/

namespace DialectBench

/-- A session leaves the world of another one as it is: no entry of the file tree was changed, and
every call left the tree that it found. -/
structure Session.Untouched (s t : Session) : Prop where
  /-- The world is the same. -/
  scene : t.scene = s.scene
  /-- The only changes are those of calls that left everything. -/
  changes : ∃ entered, t.changes = entered ++ s.changes ∧
    ∀ change ∈ entered, change = .adopt s.scene.disk

namespace Session.Untouched

/-- A session leaves itself as it is. -/
theorem refl (s : Session) : s.Untouched s := ⟨rfl, [], rfl, by simp⟩

/-- What is left as it is twice is left as it is. -/
theorem trans {s t u : Session} (one : s.Untouched t) (other : t.Untouched u) : s.Untouched u := by
  obtain ⟨scene, first, entered, still⟩ := one
  obtain ⟨last, second, more, calm⟩ := other
  refine ⟨last.trans scene, second ++ first, by rw [more, entered, List.append_assoc], ?_⟩
  rw [scene] at calm
  exact List.forall_mem_append.mpr ⟨calm, still⟩

/-- Where neither the world nor the list of changes is another one, nothing was touched. -/
theorem of_eq {s t : Session} (scene : t.scene = s.scene) (changes : t.changes = s.changes) :
    s.Untouched t :=
  ⟨scene, [], changes, by simp⟩

end Session.Untouched

namespace Action

variable {α β : Type} {scene : Scene} {action : Action α} {calls more all : List Call}
  {result : Except Failure α}

/-- In a world that is known an action touches nothing, and it is known what it calls and what comes
of it. -/
structure Foretold (scene : Scene) (action : Action α) (calls : List Call)
    (result : Except Failure α) : Prop where
  /-- What comes of the action. -/
  outcome : ∀ s : Session, s.scene = scene → action.outcome s = result
  /-- Nothing is touched. -/
  untouched : ∀ s : Session, s.scene = scene → s.Untouched (action.after s)
  /-- What is called. -/
  calls : ∀ s : Session, s.scene = scene →
    ∃ made, s.Leads made (action.after s) ∧ made.map Exchange.call = calls

/-- The calls of an action that are foretold are those that it makes. -/
theorem Foretold.trace (foretold : Foretold scene action calls result) {s : Session}
    (same : s.scene = scene) : (action.trace s).map Exchange.call = calls := by
  obtain ⟨made, led, called⟩ := foretold.calls s same
  rw [Action.trace, led.since_eq, called]

namespace Foretold

/-- Quiet work that leaves a session as it is calls nothing and touches nothing. -/
theorem of_quiet (quiet : action.Quiet)
    (outcome : ∀ s : Session, s.scene = scene → action.outcome s = result)
    (still : ∀ s, (action.after s).scene = s.scene ∧ (action.after s).changes = s.changes) :
    Foretold scene action [] result :=
  ⟨outcome, fun s _ => .of_eq (still s).1 (still s).2, fun s _ => ⟨[], quiet.leads s, rfl⟩⟩

/-- A value is given back. -/
theorem pure (value : α) : Foretold scene (pure value) [] (.ok value) :=
  of_quiet (.pure value) (fun _ _ => rfl) fun _ => ⟨rfl, rfl⟩

/-- A result that is taken over is foretold. -/
theorem ofExcept (result : Except Failure α) : Foretold scene (ofExcept result) [] result :=
  of_quiet (quiet_ofExcept result) (fun s _ => outcome_ofExcept result s) fun s => by
    rw [after_ofExcept]
    exact ⟨rfl, rfl⟩

/-- A query is answered from the tree that is known. -/
theorem look (query : Disk → α) : Foretold scene (look query) [] (.ok (query scene.disk)) :=
  of_quiet (quiet_look query) (fun s same => by rw [outcome_look, same]) fun _ => ⟨rfl, rfl⟩

/-- The time is the one that is known. -/
theorem stamp : Foretold scene stamp [] (.ok scene.moment.stamp) :=
  of_quiet .stamp (fun s same => by rw [outcome_stamp, same]) fun _ => ⟨rfl, rfl⟩

/-- Telling the operator something touches nothing. -/
theorem tell (event : Event) : Foretold scene (tell event) [] (.ok ()) :=
  of_quiet (.tell event) (fun _ _ => rfl) fun _ => ⟨rfl, rfl⟩

/-- A warning touches nothing. -/
theorem warn (words : String) : Foretold scene (warn words) [] (.ok ()) := tell _

/-- Asking for a request to stop fails when there is one. -/
theorem stopIfAsked : Foretold scene stopIfAsked []
    (if scene.interrupted then .error Failure.interruption else .ok ()) :=
  of_quiet .stopIfAsked (fun s same => by rw [outcome_stopIfAsked, same]) fun s => by
    rw [after_stopIfAsked]
    exact ⟨rfl, rfl⟩

/-- Without a request to stop, asking for one succeeds. -/
theorem stopIfAsked_of_unasked (unasked : scene.interrupted = false) :
    Foretold scene Action.stopIfAsked [] (.ok ()) := by
  have asks : Foretold scene Action.stopIfAsked [] _ := stopIfAsked
  rwa [unasked] at asks

/-- With a request to stop, asking for one fails. -/
theorem stopIfAsked_of_asked (asked : scene.interrupted = true) :
    Foretold scene Action.stopIfAsked [] (.error Failure.interruption) := by
  have asks : Foretold scene Action.stopIfAsked [] _ := stopIfAsked
  rwa [asked] at asks

/-- After a success the next action finds the same world. -/
theorem bind {value : α} {next : α → Action β} {last : Except Failure β}
    (first : Foretold scene action calls (.ok value))
    (second : Foretold scene (next value) more last) (same : calls ++ more = all) :
    Foretold scene (action >>= next) all last where
  outcome s here := by
    have there : (action.after s).scene = scene := (first.untouched s here).scene.trans here
    rw [outcome_bind_of_ok (first.outcome s here), second.outcome _ there]
  untouched s here := by
    have there : (action.after s).scene = scene := (first.untouched s here).scene.trans here
    rw [after_bind_of_ok (first.outcome s here)]
    exact (first.untouched s here).trans (second.untouched _ there)
  calls s here := by
    have there : (action.after s).scene = scene := (first.untouched s here).scene.trans here
    obtain ⟨early, led, called⟩ := first.calls s here
    obtain ⟨late, goes, others⟩ := second.calls _ there
    rw [after_bind_of_ok (first.outcome s here)]
    exact ⟨early ++ late, led.trans goes, by rw [List.map_append, called, others, same]⟩

/-- After a failure nothing follows. -/
theorem bind_of_error {failure : Failure} {next : α → Action β}
    (first : Foretold scene action calls (.error failure)) :
    Foretold scene (action >>= next) calls (.error failure) where
  outcome s same := outcome_bind_of_error (first.outcome s same) next
  untouched s same := by
    rw [after_bind_of_error (first.outcome s same)]
    exact first.untouched s same
  calls s same := by
    rw [after_bind_of_error (first.outcome s same)]
    exact first.calls s same

/-- What comes of an attempt is a success of its own. -/
theorem attempt (foretold : Foretold scene action calls result) :
    Foretold scene (attempt action) calls (.ok result) where
  outcome s same := by rw [outcome_attempt, foretold.outcome s same]
  untouched s same := by
    rw [after_attempt]
    exact foretold.untouched s same
  calls s same := by
    rw [after_attempt]
    exact foretold.calls s same

/-- A step around a success changes nothing. -/
theorem within {value : α} (foretold : Foretold scene action calls (.ok value)) (step : Fault) :
    Foretold scene (within step action) calls (.ok value) where
  outcome s same := by
    rw [outcome_within, foretold.outcome s same]
    rfl
  untouched s same := by
    rw [after_within]
    exact foretold.untouched s same
  calls s same := by
    rw [after_within]
    exact foretold.calls s same

/-- Something that is told for each of several items touches nothing. -/
theorem forM_tell (events : List Event) :
    Foretold scene (events.forM Action.tell) [] (.ok PUnit.unit) := by
  induction events with
  | nil => exact .pure _
  | cons event rest ih => exact (tell event).bind ih rfl

/-- In a rehearsal a command is said to have run. -/
theorem run (command : Command) :
    Foretold scene (Action.run .rehearsal command) [.run command] (.ok Output.silent) where
  outcome s _ := outcome_run .rehearsal command s
  untouched s _ := by
    rw [after_run]
    refine ⟨?_, [.adopt s.scene.disk], rfl, by simp⟩
    simp [settle, settled, Runner.rehearsal]
  calls s _ := by
    obtain ⟨exchange, led, call, -⟩ := leads_run .rehearsal command s
    exact ⟨[exchange], led, by simp [call]⟩

/-- In a rehearsal a command is said to have succeeded. -/
theorem runToSuccess (command : Command) :
    Foretold scene (Action.runToSuccess .rehearsal command) [.run command] (.ok Output.silent) :=
  (run command).bind ((ofExcept _).bind (pure _) rfl) rfl

/-- In a rehearsal a command is said to have been watched. -/
theorem stream (command : Command) (log : Path) (timing : Watching.Timing) :
    Foretold scene (Action.stream .rehearsal command log timing)
      [.stream command log timing.idle] (.ok ⟨0, false⟩) where
  outcome s _ := outcome_stream .rehearsal command log timing s
  untouched s _ := by
    rw [after_stream]
    refine ⟨?_, [.adopt s.scene.disk], rfl, by simp⟩
    simp [settle, settled, Runner.rehearsal]
  calls s _ := by
    obtain ⟨exchange, led, call, -⟩ := leads_stream .rehearsal command log timing s
    exact ⟨[exchange], led, by simp [call]⟩

end Foretold

end Action

end DialectBench

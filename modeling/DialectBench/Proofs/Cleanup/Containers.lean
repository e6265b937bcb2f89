import DialectBench.Cleanup
import DialectBench.Proofs.Session.Calls

/-! The commands of a cleanup: which containers are told to be removed, and that the file tree stays if the
runner leaves it alone. -/

namespace DialectBench

open Action

/-- A runner leaves the file tree alone when it runs commands to their end. -/
def Runner.LeavesTree (runner : Runner) : Prop :=
  ∀ calls command scene, (runner.run calls command scene).scene.disk = scene.disk

namespace Action

variable {α β : Type}

/-- An action leaves the file tree alone, whatever comes of it. -/
def LeavesTree (action : Action α) : Prop :=
  ∀ s : Session, (action.after s).scene.disk = s.scene.disk

/-- Two actions that leave the tree alone do so in turn. -/
theorem LeavesTree.bind {action : Action α} {next : α → Action β} (first : action.LeavesTree)
    (second : ∀ value, (next value).LeavesTree) : (action >>= next).LeavesTree := by
  intro s
  rw [after_bind]
  split
  · exact (second _ _).trans (first s)
  · exact first s

end Action

namespace Cleanup

variable {runner : Runner} {s : Session} {names : List String} {removed : List String}

/-- Running a command leaves the tree alone if the runner does. -/
theorem leavesTree_run (still : runner.LeavesTree) (command : Command) :
    (Action.run runner command).LeavesTree := by
  intro s
  rw [after_run]
  exact still _ _ _

/-- Removing containers leaves the tree alone. -/
theorem leavesTree_dropContainers (still : runner.LeavesTree) (names : List String) :
    (dropContainers runner names).LeavesTree := by
  induction names with
  | nil => exact fun _ => rfl
  | cons name names ih =>
    -- For one container the runner is asked once or twice.
    have one : (dropContainer runner name).LeavesTree := by
      refine (leavesTree_run still _).bind fun found => ?_
      split
      · exact fun _ => rfl
      · refine (leavesTree_run still _).bind fun output => ?_
        split <;> exact fun _ => rfl
    exact one.bind fun done => ih.bind fun others _ => rfl

/-- Cleaning the workspace by its build leaves the tree alone. -/
theorem leavesTree_cleanWorkspace (still : runner.LeavesTree) (lab : Lab) (options : CleanupScope) :
    (cleanWorkspace lab options runner).LeavesTree := by
  unfold cleanWorkspace
  split
  · refine ((leavesTree_run still _).bind fun output => LeavesTree.bind (fun s => ?_) fun _ _ => rfl).bind
      fun _ _ => rfl
    rw [after_ofExcept]
  · exact fun _ => rfl

/-- The calls that remove containers, and the containers that they have removed: each container is looked up by
its name, and one that is found is removed, which succeeds or not. -/
inductive Dropped : List String → List Exchange → List String → Prop where
  /-- There are no containers. -/
  | nil : Dropped [] [] []
  /-- The first container is not found. -/
  | absent {name : String} {names removed : List String} {lookup : Exchange} {calls : List Exchange}
      {found : Output} (asked : lookup.call = .run (lookupCommand name))
      (reply : lookup.reply = .output (.ok found))
      (none : found.succeeded = false ∨ Text.isAllBlank found.stdout = true)
      (rest : Dropped names calls removed) : Dropped (name :: names) (lookup :: calls) removed
  /-- The first container is found, and its removal is tried. -/
  | found {name : String} {names removed : List String} {lookup removal : Exchange}
      {calls : List Exchange} {found output : Output}
      (asked : lookup.call = .run (lookupCommand name)) (reply : lookup.reply = .output (.ok found))
      (listed : found.succeeded = true ∧ Text.isAllBlank found.stdout = false)
      (removes : removal.call = .run (removeCommand name)) (answer : removal.reply = .output (.ok output))
      (rest : Dropped names calls removed) :
      Dropped (name :: names) (lookup :: removal :: calls)
        (if output.succeeded then name :: removed else removed)

/-- Only containers that were named are removed, in their order. -/
theorem Dropped.sublist {calls : List Exchange} (dropped : Dropped names calls removed) :
    removed.Sublist names := by
  induction dropped with
  | nil => exact .slnil
  | absent _ _ _ _ ih => exact ih.cons _
  | found _ _ _ _ _ _ ih =>
    -- A container that was found may have stayed.
    split
    · exact ih.cons_cons _
    · exact ih.cons _

/-- Removing one container looks it up and removes it if it is found. -/
theorem dropContainer_of_ok {name : String} {done : Bool} {calls : List Exchange}
    (passed : (dropContainer runner name).outcome s = .ok done) (rest : Dropped names calls removed) :
    ∃ own, s.Leads own ((dropContainer runner name).after s) ∧
      Dropped (name :: names) (own ++ calls) (if done then name :: removed else removed) := by
  unfold dropContainer at passed ⊢
  obtain ⟨found, first, onward⟩ := outcome_bind_eq_ok.mp passed
  obtain ⟨lookup, led, asked, reply, -⟩ := leads_run runner (lookupCommand name) s
  rw [first] at reply
  rw [after_bind_of_ok first]
  by_cases none : (!found.succeeded || Text.isAllBlank found.stdout) = true
  · -- Nothing more is called, and nothing is told to be removed.
    rw [if_pos none] at onward ⊢
    obtain rfl := Except.ok.inj onward
    rw [Bool.or_eq_true, Bool.not_eq_true'] at none
    exact ⟨[lookup], led, .absent asked reply none rest⟩
  · rw [if_neg none] at onward ⊢
    obtain ⟨output, second, last⟩ := outcome_bind_eq_ok.mp onward
    obtain ⟨removal, leads, removes, answer, -⟩ :=
      leads_run runner (removeCommand name) ((Action.run runner (lookupCommand name)).after s)
    rw [second] at answer
    have listed : found.succeeded = true ∧ Text.isAllBlank found.stdout = false := by
      simpa using none
    have whole : Dropped (name :: names) ([lookup, removal] ++ calls)
        (if output.succeeded then name :: removed else removed) :=
      .found asked reply listed removes answer rest
    refine ⟨[lookup, removal], ?_, ?_⟩
    · -- Behind the removal there is at most a warning.
      refine led.trans (leads_bind_quiet leads fun output => ?_)
      split
      · exact .pure _
      · exact (quiet_warn _).bind fun _ => .pure _
    · cases success : output.succeeded with
      | true =>
        rw [success] at last whole
        obtain rfl := Except.ok.inj last
        exact whole
      | false =>
        rw [success] at last whole
        obtain rfl := Except.ok.inj last
        exact whole

/-- Removing containers makes the calls for each of them, and tells which were removed. -/
theorem dropContainers_of_ok (passed : (dropContainers runner names).outcome s = .ok removed) :
    ∃ calls, s.Leads calls ((dropContainers runner names).after s) ∧ Dropped names calls removed := by
  induction names generalizing s removed with
  | nil =>
    obtain rfl := Except.ok.inj passed
    exact ⟨[], .refl s, .nil⟩
  | cons name names ih =>
    unfold dropContainers at passed ⊢
    obtain ⟨done, first, onward⟩ := outcome_bind_eq_ok.mp passed
    obtain ⟨others, second, last⟩ := outcome_bind_eq_ok.mp onward
    -- The calls for the first container come in front of those for the others.
    obtain ⟨calls, led, dropped⟩ := ih second
    obtain ⟨own, leads, whole⟩ := dropContainer_of_ok first dropped
    obtain rfl := Except.ok.inj last
    refine ⟨own ++ calls, ?_, whole⟩
    rw [after_bind_of_ok first, after_bind_of_ok second]
    exact leads.trans led

/-- Cleaning the workspace by its build is one call, if that is asked. -/
theorem runs_cleanWorkspace (lab : Lab) (options : CleanupScope) (runner : Runner) :
    (cleanWorkspace lab options runner).Runs
      (if options.gradleClean then [Bench.cleanCommand lab.workspace options.image] else []) := by
  unfold cleanWorkspace
  split
  · exact (runs_runToSuccess _ _).bind fun _ => (Quiet.pure ()).runs
  · exact (Quiet.pure ()).runs

end Cleanup

end DialectBench

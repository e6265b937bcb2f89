import DialectBench.Json.File
import DialectBench.Proofs.Disk.Relisting
import DialectBench.Proofs.Session.Outcome

/-! Actions that do not depend on the order in which the system lists entries. -/

namespace DialectBench

/-- A session in another tree. -/
def Session.onto (s : Session) (e : Disk) : Session :=
  { s with scene := { s.scene with disk := e } }

namespace Action

variable {α β : Type}

/-- In a tree that is listed in another order the same comes of an action, and it leaves the same but for
that order. -/
def Orderless (action : Action α) : Prop :=
  ∀ (s : Session) (e : Disk), s.scene.disk.Relisted e →
    action.outcome (s.onto e) = action.outcome s ∧
      ∃ f, (action.after s).scene.disk.Relisted f ∧ action.after (s.onto e) = (action.after s).onto f

section Rules

/-- Giving a value back is orderless. -/
theorem orderless_pure (value : α) : Orderless (pure value : Action α) :=
  fun _ e relisted => ⟨rfl, e, relisted, rfl⟩

/-- Failing is orderless. -/
theorem orderless_throw (failure : Failure) : Orderless (throw failure : Action α) :=
  fun _ e relisted => ⟨rfl, e, relisted, rfl⟩

/-- Orderless actions one after the other are orderless. -/
theorem Orderless.bind {action : Action α} {next : α → Action β} (first : action.Orderless)
    (second : ∀ value, (next value).Orderless) : (action >>= next).Orderless := by
  intro s e relisted
  obtain ⟨outcome, f, still, after⟩ := first s e relisted
  rw [outcome_bind, outcome_bind, after_bind, after_bind, outcome, after]
  -- Both go on or both stop, since the same comes of the first action.
  cases action.outcome s with
  | error failure => exact ⟨rfl, f, still, rfl⟩
  | ok value => exact second value _ f still

/-- A look at what does not depend on the order is orderless. -/
theorem orderless_look {query : Disk → α}
    (same : ∀ d e : Disk, d.Relisted e → query e = query d) : (look query).Orderless :=
  fun s e relisted => ⟨congrArg Except.ok (same s.scene.disk e relisted), e, relisted, rfl⟩

/-- What is done with a tree is orderless if it is the same for one that is listed in another order. -/
theorem orderless_disk_bind {next : Disk → Action α}
    (same : ∀ d e : Disk, d.Relisted e → next e = next d) (orderless : ∀ d, (next d).Orderless) :
    (disk >>= next).Orderless := by
  intro s e relisted
  obtain ⟨outcome, f, still, after⟩ := orderless s.scene.disk s e relisted
  have own := same s.scene.disk e relisted
  exact ⟨(congrArg (fun action => action.outcome (s.onto e)) own).trans outcome, f, still,
    (congrArg (fun action => action.after (s.onto e)) own).trans after⟩

/-- A change is orderless. -/
theorem orderless_perform (change : Change) : (perform change).Orderless :=
  fun _ _ relisted => ⟨rfl, _, relisted.apply change, rfl⟩

/-- Changes are orderless. -/
theorem orderless_performAll (changes : List Change) : (performAll changes).Orderless := by
  induction changes with
  | nil => exact orderless_pure ()
  | cons change changes ih => exact (orderless_perform change).bind fun _ => ih

/-- Telling something is orderless. -/
theorem orderless_tell (event : Event) : (tell event).Orderless :=
  fun _ e relisted => ⟨rfl, e, relisted, rfl⟩

/-- Taking a result over is orderless. -/
theorem orderless_allowed (step : Fault) (result : Except OsError α) : (allowed step result).Orderless := by
  cases result with
  | ok value => exact orderless_pure value
  | error refusal => exact orderless_throw _

/-- Going on whatever comes of a orderless action is orderless. -/
theorem Orderless.attempt {action : Action α} (orderless : action.Orderless) :
    (Action.attempt action).Orderless := by
  intro s e relisted
  obtain ⟨outcome, f, still, after⟩ := orderless s e relisted
  rw [outcome_attempt, outcome_attempt, after_attempt, after_attempt, outcome]
  exact ⟨rfl, f, still, after⟩

/-- On a condition an action is orderless if it is in both cases. -/
theorem orderless_ite {condition : Prop} [Decidable condition] {one other : Action α}
    (holds : one.Orderless) (fails : other.Orderless) : (if condition then one else other).Orderless := by
  split
  · exact holds
  · exact fails

end Rules

section Directories

/-- Making directories is orderless. -/
theorem orderless_prepareDirectory (path : Path) : (prepareDirectory path).Orderless := by
  refine (orderless_look fun d e relisted => by rw [relisted.makingAll_eq]).bind fun making =>
    (orderless_performAll _).bind fun _ => ?_
  split
  · exact orderless_throw _
  · exact orderless_pure ()

/-- Making the directory that a path lies in is orderless. -/
theorem orderless_prepareParent (path : Path) : (prepareParent path).Orderless := by
  unfold prepareParent
  split
  · exact orderless_prepareDirectory _
  · exact orderless_pure ()

/-- Copying a file is orderless. -/
theorem orderless_copyFile (step : Fault) (source target : Path) :
    (copyFile step source target).Orderless :=
  (orderless_look fun d e relisted => by rw [relisted.copying_eq]).bind fun _ =>
    (orderless_allowed _ _).bind fun _ => orderless_perform _

/-- Copying entries is orderless. -/
theorem orderless_copyEntries (source target : Path) (entries : List (List String × Node)) :
    (copyEntries source target entries).Orderless := by
  induction entries with
  | nil => exact orderless_pure ()
  | cons entry rest ih =>
    refine Orderless.bind ?_ fun _ => ih
    exact orderless_ite (orderless_prepareDirectory _) (orderless_copyFile _ _ _)

/-- Looking for an entry is orderless. -/
theorem orderless_requireEntry (path : Path) : (requireEntry path).Orderless := by
  refine (orderless_look fun d e relisted => by rw [relisted.entry_eq]).bind fun found => ?_
  cases found with
  | error refusal => exact orderless_throw _
  | ok entry => exact orderless_pure ()

/-- Copying a tree is orderless, since its entries are copied in the order of their names. -/
theorem orderless_copyTree (source target : Path) : (copyTree source target).Orderless :=
  (orderless_prepareDirectory _).bind fun _ => (orderless_requireEntry _).bind fun _ =>
    (orderless_look fun d e relisted => by rw [relisted.entriesBelow_eq]).bind fun _ =>
      orderless_copyEntries _ _ _

/-- Removing a tree is orderless. -/
theorem orderless_deleteTree (path : Path) : (deleteTree path).Orderless :=
  (orderless_look fun d e relisted => by rw [relisted.removingTree_eq]).bind fun _ =>
    (orderless_allowed _ _).bind fun _ => orderless_performAll _

/-- Removing a tree that need not be there is orderless. -/
theorem orderless_removeIfPresent (path : Path) : (removeIfPresent path).Orderless :=
  (orderless_look fun d e relisted => by rw [relisted.exists?_eq]).bind fun _ =>
    orderless_ite ((orderless_deleteTree path).bind fun _ => orderless_pure true) (orderless_pure false)

/-- Writing a JSON file is orderless. -/
theorem orderless_writeJson (path : Path) (value : JsonValue) : (writeJson path value).Orderless :=
  (orderless_prepareParent _).bind fun _ =>
    (orderless_look fun d e relisted => by rw [relisted.filePlace_eq]).bind fun _ =>
      (orderless_allowed _ _).bind fun _ => (orderless_perform _).bind fun _ =>
        (orderless_perform _).bind fun _ => orderless_perform _

end Directories

end Action

end DialectBench

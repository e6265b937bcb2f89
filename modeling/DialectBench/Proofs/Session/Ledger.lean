import DialectBench.Proofs.Session.Calls

/-! The changes that quiet work makes one by one, and what holds of the file tree at every moment of
it. -/

namespace DialectBench.Action

variable {α β : Type}

/-- The changes of the file tree that an action makes, the oldest first. -/
def ledger (action : Action α) (s : Session) : List Change :=
  ((action.after s).changes.take ((action.after s).changes.length - s.changes.length)).reverse

/-- Changes put in front of those of a session are what the ledger holds. -/
theorem ledger_eq_of {action : Action α} {s : Session} {changes : List Change}
    (entered : (action.after s).changes = changes.reverse ++ s.changes) :
    action.ledger s = changes := by
  rw [ledger, entered]
  simp

/-- Actions that leave the same session have the same ledger. -/
theorem ledger_congr {action : Action α} {other : Action β} {s : Session}
    (same : action.after s = other.after s) : action.ledger s = other.ledger s := by
  rw [ledger, ledger, same]

/-- Quiet work enters each of its changes, and leaves the file tree that they make. -/
theorem Quiet.recorded {action : Action α} (quiet : action.Quiet) (s : Session) :
    (action.after s).changes = (action.ledger s).reverse ++ s.changes ∧
      (action.after s).scene.disk = s.scene.disk.applyAll (action.ledger s) := by
  -- It is enough to find some changes that were entered.
  suffices ∃ changes, (action.after s).changes = changes.reverse ++ s.changes ∧
      (action.after s).scene.disk = s.scene.disk.applyAll changes by
    obtain ⟨changes, entered, made⟩ := this
    rw [ledger_eq_of entered]
    exact ⟨entered, made⟩
  induction quiet generalizing s with
  | pure | throw | disk | stamp | universal => exact ⟨[], rfl, rfl⟩
  | tell | printLine => exact ⟨[], rfl, rfl⟩
  | stopIfAsked =>
    rw [after_stopIfAsked]
    exact ⟨[], rfl, rfl⟩
  | perform change => exact ⟨[change], rfl, rfl⟩
  | attempt _ ih =>
    rw [after_attempt]
    exact ih s
  | @bind _ _ action next _ _ first second =>
    rw [after_bind]
    cases action.outcome s with
    | error failure => exact first s
    | ok value =>
      obtain ⟨early, entered, made⟩ := first s
      obtain ⟨late, enteredLate, madeLate⟩ := second value (action.after s)
      refine ⟨early ++ late, ?_, ?_⟩
      · rw [enteredLate, entered, List.reverse_append, List.append_assoc]
      · rw [madeLate, made]
        exact List.foldl_append.symm

/-- Something holds of the file tree before, between and after the changes that an action makes. -/
def Throughout (holds : Disk → Prop) (action : Action α) (s : Session) : Prop :=
  ∀ done, done <+: action.ledger s → holds (s.scene.disk.applyAll done)

variable {holds : Disk → Prop} {action : Action α} {next : α → Action β} {s : Session}

/-- What holds throughout quiet work holds of what it leaves. -/
theorem Throughout.after (throughout : Throughout holds action s) (quiet : action.Quiet) :
    holds (action.after s).scene.disk := by
  rw [(quiet.recorded s).2]
  exact throughout _ (List.prefix_refl _)

/-- What holds throughout an action implies what follows from it. -/
theorem Throughout.imp {other : Disk → Prop} (throughout : Throughout holds action s)
    (implies : ∀ d, holds d → other d) : Throughout other action s :=
  fun done first => implies _ (throughout done first)

/-- An action that changes nothing leaves everything as it holds. -/
theorem throughout_of_still (still : (action.after s).changes = s.changes)
    (held : holds s.scene.disk) : Throughout holds action s := by
  have none : action.ledger s = [] := ledger_eq_of still
  intro done first
  rw [none, List.prefix_nil] at first
  rw [first]
  exact held

/-- The ledger of two actions in turn is that of both, unless the first one fails. -/
theorem ledger_bind (first : action.Quiet) (second : ∀ value, (next value).Quiet) (s : Session) :
    (action >>= next).ledger s =
      match action.outcome s with
      | .ok value => action.ledger s ++ (next value).ledger (action.after s)
      | .error _ => action.ledger s := by
  apply ledger_eq_of
  rw [after_bind]
  cases action.outcome s with
  | error failure => exact (first.recorded s).1
  | ok value =>
    dsimp only
    rw [((second value).recorded _).1, (first.recorded s).1, List.reverse_append,
      List.append_assoc]

/-- A part of two lists in turn is one of the first, or all of it and a part of the second. -/
theorem prefix_append_cases {γ : Type} {part first second : List γ} (within : part <+: first ++ second) :
    part <+: first ∨ ∃ rest, part = first ++ rest ∧ rest <+: second := by
  rcases List.prefix_or_prefix_of_prefix within (List.prefix_append first second) with
    early | ⟨rest, rfl⟩
  · exact Or.inl early
  · exact Or.inr ⟨rest, rfl, (List.prefix_append_right_inj first).mp within⟩

/-- What holds throughout both of two actions holds throughout them in turn. -/
theorem throughout_bind (first : action.Quiet) (second : ∀ value, (next value).Quiet)
    (early : Throughout holds action s)
    (late : ∀ value, action.outcome s = .ok value → Throughout holds (next value) (action.after s)) :
    Throughout holds (action >>= next) s := by
  intro done part
  rw [ledger_bind first second] at part
  cases outcome : action.outcome s with
  | error failure =>
    rw [outcome] at part
    exact early done part
  | ok value =>
    rw [outcome] at part
    dsimp only at part
    -- The changes up to some moment are some of the first action, or all of them and some more.
    rcases prefix_append_cases part with part | ⟨rest, rfl, behind⟩
    · exact early done part
    · have whole : s.scene.disk.applyAll (action.ledger s ++ rest) =
          (action.after s).scene.disk.applyAll rest := by
        rw [(first.recorded s).2]
        exact List.foldl_append
      rw [whole]
      exact late value outcome rest behind

/-- A single change has a moment before it and one after it. -/
theorem throughout_perform {change : Change} (before : holds s.scene.disk)
    (behind : holds (s.scene.disk.apply change)) : Throughout holds (perform change) s := by
  have single : (perform change).ledger s = [change] := ledger_eq_of rfl
  intro done part
  rw [single] at part
  rcases List.prefix_cons_iff.mp part with rfl | ⟨rest, rfl, none⟩
  · exact before
  · rw [List.prefix_nil.mp none]
    exact behind

/-- Changes that are made in turn are those of the ledger. -/
theorem ledger_performAll (changes : List Change) (s : Session) :
    (performAll changes).ledger s = changes := by
  induction changes generalizing s with
  | nil => exact ledger_eq_of rfl
  | cons change rest ih =>
    rw [performAll, ledger_bind (.perform change) (fun _ => quiet_performAll rest)]
    have single : (perform change).ledger s = [change] := ledger_eq_of rfl
    show (perform change).ledger s ++ (performAll rest).ledger _ = _
    rw [single, ih]
    rfl

/-- Changes that are made in turn have a moment behind each of them. -/
theorem throughout_performAll {changes : List Change}
    (held : ∀ done, done <+: changes → holds (s.scene.disk.applyAll done)) :
    Throughout holds (performAll changes) s := by
  intro done part
  rw [ledger_performAll] at part
  exact held done part

/-- The tree that changes made in turn leave. -/
theorem disk_performAll (changes : List Change) (s : Session) :
    ((performAll changes).after s).scene.disk = s.scene.disk.applyAll changes := by
  rw [((quiet_performAll changes).recorded s).2, ledger_performAll]

/-- Changes that are made in turn always succeed. -/
theorem outcome_performAll (changes : List Change) (s : Session) :
    (performAll changes).outcome s = .ok () := by
  induction changes generalizing s with
  | nil => rfl
  | cons change rest ih => exact (outcome_bind_of_ok rfl _).trans (ih _)

/-- Quiet work keeps what holds of the file tree. -/
structure Keeps (holds : Disk → Prop) (action : Action α) : Prop where
  /-- The work is quiet. -/
  quiet : action.Quiet
  /-- What holds before it holds throughout it. -/
  throughout : ∀ s, holds s.scene.disk → Throughout holds action s

namespace Keeps

/-- What is kept holds of what is left. -/
theorem after (keeps : Keeps holds action) {s : Session} (held : holds s.scene.disk) :
    holds (action.after s).scene.disk :=
  (keeps.throughout s held).after keeps.quiet

/-- Giving a value back keeps everything. -/
theorem pure (value : α) : Keeps holds (pure value : Action α) :=
  ⟨.pure value, fun _ held => throughout_of_still rfl held⟩

/-- Failing keeps everything. -/
theorem throw (failure : Failure) : Keeps holds (throw failure : Action α) :=
  ⟨.throw failure, fun _ held => throughout_of_still rfl held⟩

/-- A query keeps everything. -/
theorem look (query : Disk → α) : Keeps holds (look query) :=
  ⟨quiet_look query, fun _ held => throughout_of_still rfl held⟩

/-- Telling the operator something keeps everything. -/
theorem tell (event : Event) : Keeps holds (tell event) :=
  ⟨.tell event, fun _ held => throughout_of_still rfl held⟩

/-- Two actions in turn keep what each of them keeps. -/
theorem bind (first : Keeps holds action) (second : ∀ value, Keeps holds (next value)) :
    Keeps holds (action >>= next) :=
  ⟨first.quiet.bind fun value => (second value).quiet, fun s held =>
    throughout_bind first.quiet (fun value => (second value).quiet) (first.throughout s held)
      fun value _ => (second value).throughout _ (first.after held)⟩

/-- What is done after a query keeps what holds if it does so for the answer. -/
theorem look_bind {query : Disk → α} (quiet : ∀ value, (next value).Quiet)
    (throughout : ∀ s, holds s.scene.disk → Throughout holds (next (query s.scene.disk)) s) :
    Keeps holds (Action.look query >>= next) :=
  ⟨(quiet_look query).bind quiet, fun s held =>
    throughout_bind (quiet_look query) quiet (throughout_of_still rfl held) fun value outcome => by
      obtain rfl := Except.ok.inj outcome
      exact throughout s held⟩

end Keeps

end DialectBench.Action

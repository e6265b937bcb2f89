import DialectBench.Proofs.Session.Ledger

/-! What kinds of changes of the file tree are entered on the way from one session to another one. -/

namespace DialectBench

/-- Whatever is entered on the way from a session to another one is of some kind. -/
def Session.Enters (kind : Change → Prop) (s t : Session) : Prop :=
  ∃ made, t.changes = made ++ s.changes ∧ ∀ change ∈ made, kind change

variable {kind : Change → Prop} {s t u : Session}

namespace Session.Enters

/-- Nothing is entered as long as the changes stay the same. -/
theorem of_eq (same : t.changes = s.changes) : s.Enters kind t :=
  ⟨[], same, by simp⟩

/-- A single change is entered. -/
theorem single {change : Change} (fits : kind change) (entered : t.changes = change :: s.changes) :
    s.Enters kind t :=
  ⟨[change], entered, List.forall_mem_singleton.mpr fits⟩

/-- On a way that goes on, more is entered. -/
theorem trans (first : s.Enters kind t) (second : t.Enters kind u) : s.Enters kind u := by
  obtain ⟨early, entered, fits⟩ := first
  obtain ⟨late, onward, suits⟩ := second
  refine ⟨late ++ early, by rw [onward, entered, List.append_assoc], ?_⟩
  intro change member
  rcases List.mem_append.mp member with behind | before
  · exact suits change behind
  · exact fits change before

end Session.Enters

namespace Action

variable {α β : Type} {action : Action α} {next : α → Action β}

/-- Two actions in turn enter what each of them enters, the second one only if the first one succeeded. -/
theorem enters_bind (first : s.Enters kind (action.after s))
    (second : ∀ value, action.outcome s = .ok value →
      (action.after s).Enters kind ((next value).after (action.after s))) :
    s.Enters kind ((action >>= next).after s) := by
  rw [after_bind]
  cases outcome : action.outcome s with
  | error failure => exact first
  | ok value => exact first.trans (second value outcome)

/-- A command that is run enters the tree that it left. -/
theorem enters_run (adopts : ∀ disk, kind (.adopt disk)) (runner : Runner) (command : Command)
    (s : Session) : s.Enters kind ((run runner command).after s) := by
  rw [after_run]
  exact .single (adopts _) rfl

/-- What is demanded of a command that was run enters nothing more. -/
theorem enters_runToSuccess (adopts : ∀ disk, kind (.adopt disk)) (runner : Runner)
    (command : Command) (s : Session) :
    s.Enters kind ((runToSuccess runner command).after s) := by
  refine enters_bind (enters_run adopts runner command s) fun output _ => ?_
  refine enters_bind (.of_eq ?_) fun _ _ => .of_eq rfl
  rw [after_ofExcept]

/-- A command that is watched enters the tree that it left. -/
theorem enters_stream (adopts : ∀ disk, kind (.adopt disk)) (runner : Runner) (command : Command)
    (log : Path) (timing : Watching.Timing) (s : Session) :
    s.Enters kind ((stream runner command log timing).after s) := by
  rw [after_stream]
  exact .single (adopts _) rfl

/-- Changes that are made in turn are entered, and nothing else is. -/
theorem enters_performAll {changes : List Change} (fits : ∀ change ∈ changes, kind change)
    (s : Session) : s.Enters kind ((performAll changes).after s) := by
  have entered := ((quiet_performAll changes).recorded s).1
  rw [ledger_performAll] at entered
  refine ⟨changes.reverse, entered, ?_⟩
  intro change member
  exact fits change (List.mem_reverse.mp member)

end Action

end DialectBench
